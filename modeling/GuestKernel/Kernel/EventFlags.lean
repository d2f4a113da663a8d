/-
# Event flag calls

A request that is satisfied clears its bits before the pattern it saw is written out, so a bad pointer loses them.

Source: specification, 4.6.
-/

import GuestKernel.Kernel.StatusBlock
import GuestKernel.Kernel.Waiting

namespace GuestKernel
namespace Kernel

def createEventFlag (k : Kernel) (name : String) (attributes initialPattern : UInt32) : Reply ObjectId :=
  let id := k.nextId
  (k.registerNew (.eventFlag (.new id name attributes initialPattern))).done id

/-- Deletes an event flag; its waiters go on with an error. -/
def deleteEventFlag (k : Kernel) (id : ObjectId) : Reply Unit :=
  match k.objects.eventFlag? id with
  | none => k.refuse (.unknown .eventFlag id)
  | some f =>
    (k.unregister .eventFlag id).andThen fun _ k =>
      (k.wakeAll f.waiters.threads KernelError.waitDeleted.code).done ()

/-- Tells a waiter the pattern it saw and wakes it; a bad pointer is noted and no more. -/
def grantEvent (k : Kernel) (flag : ObjectId) (g : EventGrant) : Kernel :=
  let k := match k.memory.writeOptional g.outAddress g.seen with
    | .ok memory => { k with memory }
    | .error f => (k.note (.faulted f)).note (.patternNotReported flag g.thread (.memory f.error))
  k.wake g.thread 0

/-- Raises bits and wakes the waiters that are satisfied. -/
def setEventFlag (k : Kernel) (id : ObjectId) (bits : UInt32) : Reply Unit :=
  match k.objects.eventFlag? id with
  | none => k.refuse (.unknown .eventFlag id)
  | some f =>
    let (f, grants) := f.raise bits
    (grants.foldl (fun k g => k.grantEvent id g) (k.put (.eventFlag f))).done ()

/-- Keeps only the given bits. -/
def clearEventFlag (k : Kernel) (id : ObjectId) (bits : UInt32) : Reply Unit :=
  match k.objects.eventFlag? id with
  | none => k.refuse (.unknown .eventFlag id)
  | some f => (k.put (.eventFlag (f.keep bits))).done ()

/-- The event flag of an id, if it can take a request. -/
def admitEventRequest (k : Kernel) (id : ObjectId) (r : EventRequest) : Except KernelError EventFlag :=
  match k.objects.eventFlag? id with
  | none => .error (.unknown .eventFlag id)
  | some f =>
    match r.check with
    | .error e => .error e
    | .ok () => if f.isTaken then .error .eventFlagMultiple else .ok f

/-- Satisfies a request, or parks the running thread until it is satisfied. -/
def waitEventFlag (k : Kernel) (id : ObjectId) (r : EventRequest) (timeoutAddress : UInt32)
    (callbacks : Bool) : Reply WaitOutcome :=
  match k.admitEventRequest id r with
  | .error e => k.refuse e
  | .ok f =>
    if r.matched f.pattern then
      let k := k.put (.eventFlag (f.consume r))
      (k.withMemory (k.memory.writeOptional r.outAddress f.pattern)).map fun _ => .completed 0
    else
      k.block
        { kind := .eventFlag, handle := id, argument := r.bits, mode := r.mode,
          resultAddress := r.outAddress, timeoutAddress, callbacks }
        r fun w => .eventFlag (f.enqueue w)

/-- Satisfies a request or fails; the pattern seen is written out in both cases. -/
def pollEventFlag (k : Kernel) (id : ObjectId) (r : EventRequest) : Reply Unit :=
  match k.admitEventRequest id r with
  | .error e => k.refuse e
  | .ok f =>
    let k := if r.matched f.pattern then k.put (.eventFlag (f.consume r)) else k
    (k.withMemory (k.memory.writeOptional r.outAddress f.pattern)).andThen fun _ k =>
      if r.matched f.pattern then k.done () else k.refuse .eventFlagCondition

/-- Sets the pattern anew and sends all waiters away; their number is written to a guest word. -/
def cancelEventFlag (k : Kernel) (id : ObjectId) (pattern waitingAddress : UInt32) : Reply Unit :=
  match k.objects.eventFlag? id with
  | none => k.refuse (.unknown .eventFlag id)
  | some f =>
    let waiting := f.waiters.threads
    let k := k.put (.eventFlag (f.reset pattern))
    (k.withMemory (k.memory.writeOptional waitingAddress (UInt32.ofNat waiting.length))).andThen
      fun _ k => (k.wakeAll waiting KernelError.waitCancelled.code).done ()

/-- Writes the event flag's status block. -/
def referEventFlag (k : Kernel) (id : ObjectId) (address : UInt32) : Reply Unit :=
  match k.objects.eventFlag? id with
  | none => k.refuse (.unknown .eventFlag id)
  | some f => k.writeStatus address f.name f.statusWords

end Kernel
end GuestKernel
