/-
# Mutex calls

Source: specification, 4.6.
-/

import GuestKernel.Kernel.StatusBlock
import GuestKernel.Kernel.Waiting

namespace GuestKernel
namespace Kernel

/-- The owner of a mutex that is held `count` times by the caller. -/
def ownerFor (k : Kernel) (count : Int32) : Except KernelError (Option ThreadId) :=
  if 0 < count then k.currentId.map some else .ok none

/-- Creates a mutex; a positive count locks it for the running thread. -/
def createMutex (k : Kernel) (name : String) (attributes : UInt32) (initialCount : Int32) : Reply ObjectId :=
  if initialCount < 0 ∨ (1 < initialCount ∧ ¬ Mutex.recursiveIn attributes) then
    k.refuse (.illegalCount initialCount)
  else
    match k.ownerFor initialCount with
    | .error e => k.refuse e
    | .ok owner =>
      let id := k.nextId
      (k.registerNew (.mutex (.new id name attributes initialCount owner))).done id

/-- Deletes a mutex; its waiters go on with an error. -/
def deleteMutex (k : Kernel) (id : ObjectId) : Reply Unit :=
  match k.objects.mutex? id with
  | none => k.refuse (.unknown .mutex id)
  | some m =>
    (k.unregister .mutex id).andThen fun _ k =>
      (k.wakeAll m.waiters.threads KernelError.waitDeleted.code).done ()

/-- An attempt of the running thread to lock a mutex. -/
def attemptLock (k : Kernel) (id : ObjectId) (count : Int32) : Except KernelError (Mutex × LockAttempt) :=
  match k.objects.mutex? id with
  | none => .error (.unknown .mutex id)
  | some m =>
    match m.checkCount count with
    | .error e => .error e
    | .ok () =>
      match k.currentId with
      | .error e => .error e
      | .ok current => (m.tryLock current count).map fun attempt => (m, attempt)

/-- Locks a mutex, or parks the running thread until it owns it. -/
def lockMutex (k : Kernel) (id : ObjectId) (count : Int32) (timeoutAddress : UInt32) (callbacks : Bool) :
    Reply WaitOutcome :=
  match k.attemptLock id count with
  | .error e => k.refuse e
  | .ok (_, .acquired m) => (k.put (.mutex m)).done (.completed 0)
  | .ok (m, .contended) =>
    k.block { kind := .mutex, handle := id, argument := count.toUInt32, timeoutAddress, callbacks }
      count fun w => .mutex (m.enqueue w)

/-- Locks a mutex or fails. -/
def tryLockMutex (k : Kernel) (id : ObjectId) (count : Int32) : Reply Unit :=
  match k.attemptLock id count with
  | .error e => k.refuse e
  | .ok (_, .acquired m) => (k.put (.mutex m)).done ()
  | .ok (_, .contended) => k.refuse .mutexLocked

/-- Gives up holds of the running thread; the first waiter takes over a mutex that becomes free. -/
def unlockMutex (k : Kernel) (id : ObjectId) (count : Int32) : Reply Unit :=
  match k.objects.mutex? id with
  | none => k.refuse (.unknown .mutex id)
  | some m =>
    if count ≤ 0 then k.refuse (.illegalCount count)
    else
      match k.currentId with
      | .error e => k.refuse e
      | .ok current =>
        match m.unlock current count with
        | .error e => k.refuse e
        | .ok (m, none) => (k.put (.mutex m)).done ()
        | .ok (m, some next) => (((k.put (.mutex m)).note (.mutexHanded id next)).wake next 0).done ()

/-- Frees a mutex, or locks it for the running thread, and sends all waiters away; their number is written to a
guest word. -/
def cancelMutex (k : Kernel) (id : ObjectId) (count : Int32) (waitingAddress : UInt32) : Reply Unit :=
  match k.objects.mutex? id with
  | none => k.refuse (.unknown .mutex id)
  | some m =>
    if 1 < count ∧ ¬ m.isRecursive then k.refuse (.illegalCount count)
    else
      match k.ownerFor count with
      | .error e => k.refuse e
      | .ok owner =>
        let waiting := m.waiters.threads
        let k := k.put (.mutex (m.reset owner count))
        (k.withMemory (k.memory.writeOptional waitingAddress (UInt32.ofNat waiting.length))).andThen
          fun _ k => (k.wakeAll waiting KernelError.waitCancelled.code).done ()

/-- Writes the mutex's status block. -/
def referMutex (k : Kernel) (id : ObjectId) (address : UInt32) : Reply Unit :=
  match k.objects.mutex? id with
  | none => k.refuse (.unknown .mutex id)
  | some m => k.writeStatus address m.name m.statusWords

end Kernel
end GuestKernel
