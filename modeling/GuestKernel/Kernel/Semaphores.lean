/-
# Semaphore calls

Source: specification, 4.6.
-/

import GuestKernel.Kernel.StatusBlock
import GuestKernel.Kernel.Waiting

namespace GuestKernel
namespace Kernel

def createSemaphore (k : Kernel) (name : String) (attributes : UInt32) (initialCount maxCount : Int32) :
    Reply ObjectId :=
  if maxCount ≤ 0 ∨ initialCount < 0 ∨ maxCount < initialCount then k.refuse (.illegalCount initialCount)
  else
    let id := k.nextId
    (k.registerNew (.semaphore (.new id name attributes initialCount maxCount))).done id

/-- Deletes a semaphore; its waiters go on with an error. -/
def deleteSemaphore (k : Kernel) (id : ObjectId) : Reply Unit :=
  match k.objects.semaphore? id with
  | none => k.refuse (.unknown .semaphore id)
  | some s =>
    (k.unregister .semaphore id).andThen fun _ k =>
      (k.wakeAll s.waiters.threads KernelError.waitDeleted.code).done ()

/-- Adds units and serves the waiters that can be. -/
def signalSemaphore (k : Kernel) (id : ObjectId) (amount : Int32) : Reply Unit :=
  match k.objects.semaphore? id with
  | none => k.refuse (.unknown .semaphore id)
  | some s =>
    if amount < 0 then k.refuse (.illegalCount amount)
    else if s.overflows amount then k.refuse .semaphoreOverflow
    else
      let (s, served) := s.release amount
      ((k.put (.semaphore s)).wakeAll served 0).done ()

/-- Takes units, or parks the running thread until it gets them. -/
def waitSemaphore (k : Kernel) (id : ObjectId) (need : Int32) (timeoutAddress : UInt32) (callbacks : Bool) :
    Reply WaitOutcome :=
  match k.objects.semaphore? id with
  | none => k.refuse (.unknown .semaphore id)
  | some s =>
    if need ≤ 0 ∨ s.maxCount < need then k.refuse (.illegalCount need)
    else
      match s.acquire? need with
      | some s => (k.put (.semaphore s)).done (.completed 0)
      | none =>
        k.block { kind := .semaphore, handle := id, argument := need.toUInt32, timeoutAddress, callbacks }
          need fun w => .semaphore (s.enqueue w)

/-- Takes units or fails. -/
def pollSemaphore (k : Kernel) (id : ObjectId) (need : Int32) : Reply Unit :=
  match k.objects.semaphore? id with
  | none => k.refuse (.unknown .semaphore id)
  | some s =>
    if need ≤ 0 then k.refuse (.illegalCount need)
    else
      match s.acquire? need with
      | some s => (k.put (.semaphore s)).done ()
      | none => k.refuse .semaphoreZero

/-- Sets the count anew and sends all waiters away; their number is written to a guest word. -/
def cancelSemaphore (k : Kernel) (id : ObjectId) (count : Int32) (waitingAddress : UInt32) : Reply Unit :=
  match k.objects.semaphore? id with
  | none => k.refuse (.unknown .semaphore id)
  | some s =>
    if s.maxCount < count then k.refuse (.illegalCount count)
    else
      let waiting := s.waiters.threads
      let k := k.put (.semaphore (s.reset count))
      (k.withMemory (k.memory.writeOptional waitingAddress (UInt32.ofNat waiting.length))).andThen
        fun _ k => (k.wakeAll waiting KernelError.waitCancelled.code).done ()

/-- Writes the semaphore's status block. -/
def referSemaphore (k : Kernel) (id : ObjectId) (address : UInt32) : Reply Unit :=
  match k.objects.semaphore? id with
  | none => k.refuse (.unknown .semaphore id)
  | some s => k.writeStatus address s.name s.statusWords

end Kernel
end GuestKernel
