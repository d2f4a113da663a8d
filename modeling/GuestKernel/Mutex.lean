/-
# Mutexes

A mutex has at most one owner, who holds it some number of times. When the last hold is given up, the first waiter
owns the mutex with the number of holds it asked for.

Source: specification, 3 and 4.6.
-/

import GuestKernel.WaitQueue

namespace GuestKernel

/-- The attribute bit that lets the owner lock again. -/
def attributeRecursive : UInt32 := 0x200

/-- A mutex; each waiter asks for a number of holds. -/
structure Mutex where
  id : ObjectId
  name : String
  attributes : UInt32
  initialCount : Int32
  owner : Option ThreadId
  lockCount : Int32
  waiters : WaitQueue Int32 := []
deriving DecidableEq

/-- How an attempt to lock ended. -/
inductive LockAttempt where
  | acquired (m : Mutex)
  | contended
deriving DecidableEq

namespace Mutex

/-- A mutex held `initialCount` times by its owner. -/
def new (id : ObjectId) (name : String) (attributes : UInt32) (initialCount : Int32)
    (owner : Option ThreadId) : Mutex :=
  { id, name, attributes, initialCount, owner, lockCount := initialCount }

/-- Whether attributes let the owner lock again. -/
def recursiveIn (attributes : UInt32) : Bool := attributes &&& attributeRecursive != 0

def isRecursive (m : Mutex) : Bool := recursiveIn m.attributes

/-- A lock asks for one hold, or for more if the mutex is recursive. -/
def checkCount (m : Mutex) (count : Int32) : Except KernelError Unit :=
  if count ≤ 0 ∨ (1 < count ∧ ¬ m.isRecursive) then .error (.illegalCount count) else .ok ()

/-- The largest lock count. -/
def maxLockCount : Int := 0x7FFFFFFF

/-- Locks a free mutex, or one that the thread owns already. -/
def tryLock (m : Mutex) (thread : ThreadId) (count : Int32) : Except KernelError LockAttempt :=
  match m.owner with
  | none => .ok (.acquired { m with owner := some thread, lockCount := count })
  | some owner =>
    if owner = thread then
      if ¬ m.isRecursive then .error .mutexRecursive
      else if maxLockCount < m.lockCount.toInt + count.toInt then .error .mutexLockOverflow
      else .ok (.acquired { m with lockCount := m.lockCount + count })
    else .ok .contended

/-- Gives up holds of a thread; gives back the thread that owns the mutex next, if it changes hands. -/
def unlock (m : Mutex) (thread : ThreadId) (count : Int32) : Except KernelError (Mutex × Option ThreadId) :=
  if m.owner ≠ some thread then .error .mutexUnlocked
  else if m.lockCount < count then .error .mutexUnlockUnderflow
  else
    let left := m.lockCount - count
    if 0 < left then .ok ({ m with lockCount := left }, none)
    else
      match m.waiters with
      | [] => .ok ({ m with owner := none, lockCount := left }, none)
      | w :: rest =>
        .ok ({ m with owner := some w.thread, lockCount := w.request, waiters := rest }, some w.thread)

def enqueue (m : Mutex) (w : Waiter Int32) : Mutex :=
  { m with waiters := m.waiters.enqueue m.attributes w }

/-- The mutex without waiters, held `count` times by `owner`; a negative count means not at all. -/
def reset (m : Mutex) (owner : Option ThreadId) (count : Int32) : Mutex :=
  { m with owner, lockCount := if count < 0 then 0 else count, waiters := [] }

/-- The owner's word in the status block of a free mutex. -/
def noOwner : UInt32 := 0xFFFFFFFF

/-- The words of the mutex's status block. -/
def statusWords (m : Mutex) : List UInt32 :=
  [m.attributes, m.initialCount.toUInt32, m.lockCount.toUInt32, m.owner.getD noOwner,
    UInt32.ofNat m.waiters.length]

end Mutex

end GuestKernel
