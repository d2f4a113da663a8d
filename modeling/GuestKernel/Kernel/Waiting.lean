/-
# Waiting and waking

Every blocking call has the same shape: try at once, else park the running thread and queue it on the object. The thread
comes back through `wake`, because the object changed, was cancelled or deleted, or because its time was up.

Source: specification, 4.4.
-/

import GuestKernel.Kernel.Basic

namespace GuestKernel
namespace Kernel

/-- Puts a thread into the ready queue; one that is there already keeps its slot. -/
def schedule (k : Kernel) (id : ThreadId) (priority : UInt32) : Kernel :=
  match k.ready.insert id priority with
  | .ok ready => { k.noteAll (k.ready.insertEvents id priority) with ready }
  | .error e => k.note (.scheduleSkipped e)

/-- The timeout behind a guest pointer: none for a null pointer, and at least one tick else. -/
def readTimeout (k : Kernel) (address : UInt32) : Except Fault UInt64 :=
  if address = 0 then .ok 0
  else (k.memory.readWord address).map fun micros => max micros.toUInt64 1

/-- The kernel in which a thread has left the processor for a wait. -/
def park (k : Kernel) (t : Thread) (w : Wait) : Kernel :=
  { k.putThread (t.park w) with ready := k.ready.remove t.id, current := none }

/-- Parks the running thread and gives its id; its waiter is still to be queued. -/
def beginWait (k : Kernel) (w : Wait) : Reply ThreadId :=
  if k.delivering.isSome then k.refuse .illegalContext
  else
    match k.current with
    | none => k.refuse .illegalContext
    | some id =>
      match k.thread? id with
      | none => k.refuse (.unknown .thread id)
      | some t =>
        ((k.note (.waitBegun id w.kind w.handle)).park t { w with since := k.now }).done id

/-- Tells a waiter how much of its timeout is left. -/
def writeRemaining (k : Kernel) (id : ThreadId) (w : Wait) : Kernel :=
  if w.timeoutAddress = 0 then k
  else
    match w.remaining? k.now with
    | none => k
    | some remaining =>
      match k.memory.writeWord w.timeoutAddress remaining with
      | .ok memory => { k with memory }
      | .error f => (k.note (.faulted f)).note (.timeoutNotWritten id f.error)

/-- Ends a thread's wait with a result in `v0`; the thread is off the object's queue already. -/
def wake (k : Kernel) (id : ThreadId) (result : Int32) : Kernel :=
  match k.thread? id with
  | none => k.note (.unknownThreadWoken id)
  | some t =>
    match t.wait with
    | none => k.note (.idleThreadWoken id)
    | some w =>
      let k := (k.putThread (t.unpark result)).writeRemaining id w
      let k := match t.context with
        | some context => k.setRegister context Register.v0 result.toUInt32
        | none => k
      let k := if t.status.suspended then k else k.schedule id t.priority
      k.note (.woken id w.kind result)

/-- Ends the waits of several threads with one result, in the given order. -/
def wakeAll (k : Kernel) (ids : List ThreadId) (result : Int32) : Kernel :=
  ids.foldl (fun k id => k.wake id result) k

/-- Takes a thread off the queue of the object it waits on. -/
def detach (k : Kernel) (id : ThreadId) (w : Wait) : Kernel :=
  if w.kind = .sleep ∨ w.kind = .delay then k
  else
    match k.objects.get? w.handle with
    | none => k.note (.waitedObjectGone w.handle)
    | some o =>
      if o.waiting.contains id then k.put (o.removeWaiter id)
      else k.note (.waiterNotQueued id w.handle)

/-- The started threads that wait, with their waits, in start order. -/
def waits (k : Kernel) : List (ThreadId × Wait) :=
  k.started.filterMap fun id =>
    match k.thread? id with
    | some t => t.wait.map fun w => (id, w)
    | none => none

/-- The result of a wait that ended by its timeout: a delay has done its work. -/
def timeoutResult (w : Wait) : Int32 := if w.kind = .delay then 0 else KernelError.timeout.code

/-- Ends a wait whose time is up. -/
def expire (k : Kernel) (id : ThreadId) (w : Wait) : Kernel :=
  ((k.detach id w).note (.timedOut id w.kind)).wake id (timeoutResult w)

/-- The waits whose deadline has come. -/
def overdue (k : Kernel) : List (ThreadId × Wait) :=
  k.waits.filter fun (_, w) =>
    match w.deadline? with
    | some deadline => deadline ≤ k.now
    | none => false

/-- Ends the waits whose deadline has come and gives their number. -/
def expireTimeouts (k : Kernel) : Nat × Kernel :=
  (k.overdue.length, k.overdue.foldl (fun k (id, w) => k.expire id w) k)

/-- Moves the clock and ends the waits whose deadline has come; gives their number. -/
def advanceClock (k : Kernel) (ticks : UInt64) : Nat × Kernel :=
  ({ k with clock := k.clock.advance ticks }).expireTimeouts

/-- The earliest deadline of all waits. -/
def nextDeadline (k : Kernel) : Option UInt64 :=
  (k.waits.filterMap fun (_, w) => w.deadline?).min?

/-- Parks the running thread on an object with the timeout behind a guest pointer. `queue` puts its waiter into
the object. -/
def block {ρ : Type} (k : Kernel) (w : Wait) (request : ρ) (queue : Waiter ρ → Object) :
    Reply WaitOutcome :=
  match k.readTimeout w.timeoutAddress with
  | .error f => k.fault f
  | .ok timeout =>
    match k.current with
    | none => k.refuse .illegalContext
    | some id =>
      match k.thread? id with
      | none => k.refuse (.unknown .thread id)
      | some t =>
        (k.beginWait { w with timeout }).andThen fun thread k =>
          (k.put (queue ⟨thread, t.priority, request⟩)).done .blocked

end Kernel
end GuestKernel
