/-
# What each system call does

The guest names threads loosely: 0 means the running thread in some calls and is refused in others. Beyond that, a system
call is a call on the kernel. How the caller goes on depends on the call: one that may have made another thread ready
yields, one that ends its caller reschedules.

Source: specification, 4.7.
-/

import GuestKernel.Kernel.EventFlags
import GuestKernel.Kernel.MessagePipes
import GuestKernel.Kernel.Mutexes
import GuestKernel.Kernel.PartitionMemory
import GuestKernel.Kernel.Semaphores
import GuestKernel.Kernel.Threads
import GuestKernel.Syscall.Call

namespace GuestKernel
namespace Kernel

/-- Runs a call on the thread that the guest names, where 0 is the running one. -/
def onThread {α : Type} (k : Kernel) (id : ThreadId) (call : Kernel → ThreadId → Reply α) : Reply α :=
  match k.resolve id with
  | .ok id => call k id
  | .error e => k.refuse e

/-- Runs a call on another thread: 0 is refused. -/
def onOther {α : Type} (k : Kernel) (id : ThreadId) (call : Kernel → ThreadId → Reply α) : Reply α :=
  if id = 0 then k.refuse (.illegalThread id) else call k id

/-- Deletes a thread that does not run and will not. -/
def deleteDormant (k : Kernel) (id : ThreadId) : Reply Unit :=
  if id = 0 ∨ k.current = some id then k.refuse (.illegalThread id)
  else
    match k.thread? id with
    | none => k.refuse (.unknown .thread id)
    | some t => if t.isDormant then k.deleteThread id else k.refuse .notDormant

/-- Ends the running thread. -/
def exitCurrent (k : Kernel) (exitCode : Int32) : Reply ThreadId :=
  match k.current with
  | none => k.refuse .illegalContext
  | some id => (k.exitThread id exitCode).map fun _ => id

/-- Changes a priority, where 0 restores the one that the thread was created with. -/
def restorePriority (k : Kernel) (id : ThreadId) (priority : UInt32) : Reply Unit :=
  if priority = 0 then
    match k.thread? id with
    | none => k.refuse (.unknown .thread id)
    | some t => k.changePriority id t.initialPriority
  else k.changePriority id priority

/-- The priority of the running thread. -/
def currentPriority (k : Kernel) : Except KernelError UInt32 :=
  match k.currentId with
  | .error e => .error e
  | .ok id => (k.thread id).map (·.priority)

/-- Joins a thread with the timeout behind a guest pointer. -/
def waitThreadEnd (k : Kernel) (id : ThreadId) (timeoutAddress : UInt32) (callbacks : Bool) :
    Reply WaitOutcome :=
  match k.readTimeout timeoutAddress with
  | .error f => k.fault f
  | .ok timeout => k.joinThread id timeout timeoutAddress callbacks

/-- Carries out a system call. -/
def perform (k : Kernel) : Syscall → Reply Answer
  | .createThread name entry priority stackSize attributes =>
    (k.createThread name entry priority stackSize attributes).map .word
  | .deleteThread id => (k.deleteDormant id).map fun _ => .done
  | .startThread id argumentLength argumentAddress =>
    (k.startThread id argumentLength argumentAddress).map fun _ => .done
  | .exitThread exitCode => (k.exitCurrent exitCode).map fun _ => .done
  | .exitDeleteThread exitCode =>
    ((k.exitCurrent exitCode).andThen fun id k => k.deleteThread id).map fun _ => .done
  | .terminateThread id => (k.onOther id terminateThread).map fun _ => .done
  | .terminateDeleteThread id =>
    ((k.onOther id terminateThread).andThen fun _ k => k.deleteThread id).map fun _ => .done
  | .changeThreadPriority id priority =>
    (k.onThread id fun k id => k.restorePriority id priority).map fun _ => .done
  | .waitThreadEnd id timeoutAddress callbacks =>
    (k.waitThreadEnd id timeoutAddress callbacks).map .outcome
  | .threadId => (k.answer k.currentId).map .word
  | .threadCurrentPriority => (k.answer k.currentPriority).map .word
  | .threadExitStatus id => (k.onThread id fun k id => k.answer (k.exitStatus id)).map .signed
  | .sleepThread callbacks => (k.sleepThread callbacks).map .outcome
  | .wakeupThread id => (k.onThread id wakeupThread).map fun _ => .done
  | .cancelWakeupThread id => (k.onThread id cancelWakeup).map .word
  | .suspendThread id => (k.onOther id suspendThread).map fun _ => .done
  | .resumeThread id => (k.onOther id resumeThread).map fun _ => .done
  | .delayThread micros callbacks => (k.delayThread micros.toUInt64 callbacks).map .outcome
  | .createCallback name entry commonArgument => (k.createCallback name entry commonArgument).map .word
  | .deleteCallback id => (k.deleteCallback id).map fun _ => .done
  | .notifyCallback id argument => (k.notifyCallback id argument).map fun _ => .done
  | .checkCallback => k.checkCallbacks.map .flag
  | .createSemaphore name attributes initialCount maxCount =>
    (k.createSemaphore name attributes initialCount maxCount).map .word
  | .deleteSemaphore id => (k.deleteSemaphore id).map fun _ => .done
  | .signalSemaphore id amount => (k.signalSemaphore id amount).map fun _ => .done
  | .waitSemaphore id need timeoutAddress callbacks =>
    (k.waitSemaphore id need timeoutAddress callbacks).map .outcome
  | .pollSemaphore id need => (k.pollSemaphore id need).map fun _ => .done
  | .cancelSemaphore id count waitingAddress =>
    (k.cancelSemaphore id count waitingAddress).map fun _ => .done
  | .referSemaphore id address => (k.referSemaphore id address).map fun _ => .done
  | .createEventFlag name attributes initialPattern =>
    (k.createEventFlag name attributes initialPattern).map .word
  | .deleteEventFlag id => (k.deleteEventFlag id).map fun _ => .done
  | .setEventFlag id bits => (k.setEventFlag id bits).map fun _ => .done
  | .clearEventFlag id bits => (k.clearEventFlag id bits).map fun _ => .done
  | .waitEventFlag id r timeoutAddress callbacks =>
    (k.waitEventFlag id r timeoutAddress callbacks).map .outcome
  | .pollEventFlag id r => (k.pollEventFlag id r).map fun _ => .done
  | .cancelEventFlag id pattern waitingAddress =>
    (k.cancelEventFlag id pattern waitingAddress).map fun _ => .done
  | .referEventFlag id address => (k.referEventFlag id address).map fun _ => .done
  | .createMutex name attributes initialCount => (k.createMutex name attributes initialCount).map .word
  | .deleteMutex id => (k.deleteMutex id).map fun _ => .done
  | .lockMutex id count timeoutAddress callbacks =>
    (k.lockMutex id count timeoutAddress callbacks).map .outcome
  | .tryLockMutex id count => (k.tryLockMutex id count).map fun _ => .done
  | .unlockMutex id count => (k.unlockMutex id count).map fun _ => .done
  | .cancelMutex id count waitingAddress => (k.cancelMutex id count waitingAddress).map fun _ => .done
  | .referMutex id address => (k.referMutex id address).map fun _ => .done
  | .createPipe name partition attributes size => (k.createPipe name partition attributes size).map .word
  | .deletePipe id => (k.deletePipe id).map fun _ => .done
  | .sendPipe id r timeoutAddress callbacks => (k.sendPipe id r timeoutAddress callbacks).map .outcome
  | .trySendPipe id r => (k.trySendPipe id r).map fun _ => .done
  | .receivePipe id r timeoutAddress callbacks => (k.receivePipe id r timeoutAddress callbacks).map .outcome
  | .tryReceivePipe id r => (k.tryReceivePipe id r).map fun _ => .done
  | .cancelPipe id sendersAddress receiversAddress =>
    (k.cancelPipe id sendersAddress receiversAddress).map fun _ => .done
  | .referPipe id address => (k.referPipe id address).map fun _ => .done
  | .systemTime => k.done (.ticks k.now)
  | .systemTimeLow => k.done (.word k.now.toUInt32)
  | .writeSystemTime address => (k.withMemory (k.memory.writeLong address k.now)).map fun _ => .done
  | .allocateMemory partition name kind size address =>
    (k.allocateMemory partition name kind size address).map .word
  | .freeMemory id => (k.freeMemory id).map fun _ => .done
  | .blockAddress id => (k.answer (k.blockAddress id)).map .word
  | .maxFreeMemory => (k.answer (k.threadPartitionSize Partition.maxFreeBlock)).map .word
  | .totalFreeMemory => (k.answer (k.threadPartitionSize Partition.freeBytes)).map .word

end Kernel

/-- The value that an answer puts into `v0`, if the caller goes on. -/
def Answer.value? : Answer → Option Int32
  | done => some 0
  | word w => some w.toInt32
  | signed v => some v
  | flag b => some (if b then 1 else 0)
  | ticks t => some t.toUInt32.toInt32
  | outcome (.completed v) => some v
  | outcome .blocked => none

namespace Syscall

/-- Whether the call may make another thread ready, so that its caller yields. -/
def yields : Syscall → Bool
  | startThread .. | terminateThread .. | terminateDeleteThread .. | changeThreadPriority .. => true
  | wakeupThread .. | resumeThread .. | checkCallback => true
  | deleteSemaphore .. | signalSemaphore .. | cancelSemaphore .. => true
  | deleteEventFlag .. | setEventFlag .. | cancelEventFlag .. => true
  | deleteMutex .. | unlockMutex .. | cancelMutex .. => true
  | trySendPipe .. | tryReceivePipe .. | cancelPipe .. => true
  | _ => false

/-- Whether the call ends its caller. -/
def leaves : Syscall → Bool
  | exitThread .. | exitDeleteThread .. => true
  | _ => false

/-- How the caller goes on after a call that succeeded. -/
def returnFor (call : Syscall) (answer : Answer) : CallReturn :=
  if call.leaves then .reschedule
  else
    match answer.value? with
    | none => .reschedule
    | some v => if call.yields then .yield v else .value v

end Syscall

end GuestKernel
