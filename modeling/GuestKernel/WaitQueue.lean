/-
# Wait queues

The threads that wait on an object stand in a queue, each with its request and the priority it had on arrival. The
object's attribute word says which order they stand in: by arrival, or by that priority with arrival among equals.

Source: specification, 4.4 and 4.6.
-/

import GuestKernel.Error

namespace GuestKernel

/-- The attribute bit that orders waiters by priority. -/
def attributePriority : UInt32 := 0x100

/-- A queued thread, its priority on arrival and what it asks for. -/
structure Waiter (ρ : Type) where
  thread : ThreadId
  priority : UInt32
  request : ρ
deriving DecidableEq

/-- The waiters of an object, next to be served first. -/
abbrev WaitQueue (ρ : Type) := List (Waiter ρ)

namespace WaitQueue

variable {ρ : Type}

/-- Queues a waiter at the end, or before the first waiter of a higher priority value. -/
def enqueue (attributes : UInt32) (w : Waiter ρ) (q : WaitQueue ρ) : WaitQueue ρ :=
  if attributes &&& attributePriority = 0 then q ++ [w]
  else q.takeWhile (·.priority ≤ w.priority) ++ w :: q.dropWhile (·.priority ≤ w.priority)

/-- Whether a thread is queued. -/
def holds (q : WaitQueue ρ) (thread : ThreadId) : Bool := q.any (·.thread == thread)

/-- Takes out the first waiter of a thread. -/
def remove (q : WaitQueue ρ) (thread : ThreadId) : WaitQueue ρ := q.eraseP (·.thread == thread)

/-- The queued threads, next to be served first. -/
def threads (q : WaitQueue ρ) : List ThreadId := q.map (·.thread)

end WaitQueue

end GuestKernel
