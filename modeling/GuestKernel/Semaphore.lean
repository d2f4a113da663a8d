/-
# Semaphores

A semaphore counts units up to a maximum. Waiters are served in queue order while the first of them can be, so a large
request at the front holds back the smaller ones behind it, and nobody takes units past a queue.

Source: specification, 3 and 4.6.
-/

import GuestKernel.WaitQueue

namespace GuestKernel

/-- A counting semaphore; each waiter asks for a number of units. -/
structure Semaphore where
  id : ObjectId
  name : String
  attributes : UInt32
  initialCount : Int32
  maxCount : Int32
  count : Int32
  waiters : WaitQueue Int32 := []
deriving DecidableEq

namespace Semaphore

/-- A semaphore at its initial count. -/
def new (id : ObjectId) (name : String) (attributes : UInt32) (initialCount maxCount : Int32) : Semaphore :=
  { id, name, attributes, initialCount, maxCount, count := initialCount }

/-- Takes units if nobody is queued and enough are there. -/
def acquire? (s : Semaphore) (need : Int32) : Option Semaphore :=
  if s.waiters.isEmpty ∧ need ≤ s.count then some { s with count := s.count - need } else none

/-- Serves waiters from the front of a queue while units last; gives back the units left, the waiters left and
the threads served. -/
def serve (count : Int32) : WaitQueue Int32 → Int32 × WaitQueue Int32 × List ThreadId
  | [] => (count, [], [])
  | w :: rest =>
    if count < w.request then (count, w :: rest, [])
    else
      let (left, queue, served) := serve (count - w.request) rest
      (left, queue, w.thread :: served)

/-- Whether `amount` more units would pass the maximum. -/
def overflows (s : Semaphore) (amount : Int32) : Bool :=
  s.maxCount.toInt < s.count.toInt + amount.toInt

/-- Adds units and serves the waiters that can be; gives back the threads served. -/
def release (s : Semaphore) (amount : Int32) : Semaphore × List ThreadId :=
  let (count, waiters, served) := serve (s.count + amount) s.waiters
  ({ s with count, waiters }, served)

/-- Queues a waiter. -/
def enqueue (s : Semaphore) (w : Waiter Int32) : Semaphore :=
  { s with waiters := s.waiters.enqueue s.attributes w }

/-- The semaphore without waiters and with a new count; a negative one means the initial count. -/
def reset (s : Semaphore) (count : Int32) : Semaphore :=
  { s with count := if count < 0 then s.initialCount else count, waiters := [] }

/-- The words of the semaphore's status block. -/
def statusWords (s : Semaphore) : List UInt32 :=
  [s.attributes, s.initialCount.toUInt32, s.count.toUInt32, s.maxCount.toUInt32, UInt32.ofNat s.waiters.length]

end Semaphore

end GuestKernel
