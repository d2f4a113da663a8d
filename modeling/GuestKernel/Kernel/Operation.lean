/-
# Runs of the kernel

What can happen to a kernel from outside: system calls of the guest, the same calls made by the host on any thread, the
clock, dispatch, the end of a callback, and what the guest writes to its memory and registers in between. A kernel state
is reachable if such operations lead to it from a new kernel.

Source: specification, 5.
-/

import GuestKernel.Syscall.Perform

namespace GuestKernel

/-- Something that happens to a kernel. -/
inductive Operation where
  | syscall (call : Syscall)
  | exitThread (id : ThreadId) (exitCode : Int32)
  | deleteThread (id : ThreadId)
  | changePriority (id : ThreadId) (priority : UInt32)
  | suspendThread (id : ThreadId)
  | resumeThread (id : ThreadId)
  | wakeupThread (id : ThreadId)
  | cancelWakeup (id : ThreadId)
  | delayThread (ticks : UInt64) (callbacks : Bool)
  | joinThread (id : ThreadId) (timeout : UInt64) (timeoutAddress : UInt32) (callbacks : Bool)
  | terminateThread (id : ThreadId)
  | finishCallback (value : Int32)
  | advanceClock (ticks : UInt64)
  | expireTimeouts
  | dispatch
  | guestWrite (address : UInt32) (bytes : List UInt8)
  | guestRegister (context : ContextId) (index : Nat) (value : UInt32)
deriving DecidableEq

namespace Kernel

/-- The kernel after an operation. -/
def after (k : Kernel) : Operation → Kernel
  | .syscall call => (k.perform call).kernel
  | .exitThread id exitCode => (k.exitThread id exitCode).kernel
  | .deleteThread id => (k.deleteThread id).kernel
  | .changePriority id priority => (k.changePriority id priority).kernel
  | .suspendThread id => (k.suspendThread id).kernel
  | .resumeThread id => (k.resumeThread id).kernel
  | .wakeupThread id => (k.wakeupThread id).kernel
  | .cancelWakeup id => (k.cancelWakeup id).kernel
  | .delayThread ticks callbacks => (k.delayThread ticks callbacks).kernel
  | .joinThread id timeout timeoutAddress callbacks =>
    (k.joinThread id timeout timeoutAddress callbacks).kernel
  | .terminateThread id => (k.terminateThread id).kernel
  | .finishCallback value => (k.finishCallback value).kernel
  | .advanceClock ticks => (k.advanceClock ticks).2
  | .expireTimeouts => k.expireTimeouts.2
  | .dispatch => k.dispatch.2
  | .guestWrite address bytes => (k.withMemory (k.memory.writeBytes address bytes)).kernel
  | .guestRegister context index value => k.setRegister context index value

/-- The kernel after operations in order. -/
def run (k : Kernel) (operations : List Operation) : Kernel := operations.foldl after k

@[simp] theorem run_nil (k : Kernel) : k.run [] = k := rfl

@[simp] theorem run_cons (k : Kernel) (o : Operation) (operations : List Operation) :
    k.run (o :: operations) = (k.after o).run operations := rfl

theorem run_append (k : Kernel) (first second : List Operation) :
    k.run (first ++ second) = (k.run first).run second := by
  simp [run]

end Kernel
end GuestKernel
