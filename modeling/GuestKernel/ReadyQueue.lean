/-
# The ready queue

Runnable threads by ascending priority value: a lower value runs first. A thread enters in front of the first
entry whose value is not lower than its own, so of equal entries the latest comes out first.

Source: specification, 4.3.
-/

import GuestKernel.Error

namespace GuestKernel

/-- A runnable thread and the priority it was queued with. -/
structure ReadyEntry where
  thread : ThreadId
  priority : UInt32
deriving DecidableEq

/-- The runnable threads, next to run first. -/
structure ReadyQueue where
  entries : List ReadyEntry := []
deriving DecidableEq

namespace ReadyQueue

def contains (q : ReadyQueue) (thread : ThreadId) : Bool :=
  q.entries.any (·.thread == thread)

/-- The slot a thread of this priority would take. -/
def slot (q : ReadyQueue) (priority : UInt32) : Nat :=
  (q.entries.takeWhile (·.priority < priority)).length

/-- Queues a thread; one that is queued already keeps its slot. -/
def insert (q : ReadyQueue) (thread : ThreadId) (priority : UInt32) : Except KernelError ReadyQueue :=
  if q.contains thread then
    .error (.alreadyScheduled thread)
  else
    .ok ⟨q.entries.takeWhile (·.priority < priority) ++
      ⟨thread, priority⟩ :: q.entries.dropWhile (·.priority < priority)⟩

/-- Takes a thread out of the queue; an absent thread changes nothing. -/
def remove (q : ReadyQueue) (thread : ThreadId) : ReadyQueue :=
  ⟨q.entries.eraseP (·.thread == thread)⟩

def head? (q : ReadyQueue) : Option ReadyEntry := q.entries.head?

/-- The queue without its head. -/
def tail (q : ReadyQueue) : ReadyQueue := ⟨q.entries.tail⟩

end ReadyQueue

end GuestKernel
