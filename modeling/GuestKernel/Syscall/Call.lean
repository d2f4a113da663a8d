/-
# System calls

A system call with its arguments, as the guest means it: ids, words, counts and texts. Variants of one call that differ
only in whether callbacks may run meanwhile are one constructor with a flag.

Source: specification, 4.7.
-/

import GuestKernel.EventFlag
import GuestKernel.MessagePipe
import GuestKernel.Wait

namespace GuestKernel

/-- What the guest can ask the kernel for. -/
inductive Syscall where
  | createThread (name : String) (entry priority stackSize attributes : UInt32)
  | deleteThread (id : ThreadId)
  | startThread (id : ThreadId) (argumentLength argumentAddress : UInt32)
  | exitThread (exitCode : Int32)
  | exitDeleteThread (exitCode : Int32)
  | terminateThread (id : ThreadId)
  | terminateDeleteThread (id : ThreadId)
  | changeThreadPriority (id : ThreadId) (priority : UInt32)
  | waitThreadEnd (id : ThreadId) (timeoutAddress : UInt32) (callbacks : Bool)
  | threadId
  | threadCurrentPriority
  | threadExitStatus (id : ThreadId)
  | sleepThread (callbacks : Bool)
  | wakeupThread (id : ThreadId)
  | cancelWakeupThread (id : ThreadId)
  | suspendThread (id : ThreadId)
  | resumeThread (id : ThreadId)
  | delayThread (micros : UInt32) (callbacks : Bool)
  | createCallback (name : String) (entry commonArgument : UInt32)
  | deleteCallback (id : ObjectId)
  | notifyCallback (id : ObjectId) (argument : UInt32)
  | checkCallback
  | createSemaphore (name : String) (attributes : UInt32) (initialCount maxCount : Int32)
  | deleteSemaphore (id : ObjectId)
  | signalSemaphore (id : ObjectId) (amount : Int32)
  | waitSemaphore (id : ObjectId) (need : Int32) (timeoutAddress : UInt32) (callbacks : Bool)
  | pollSemaphore (id : ObjectId) (need : Int32)
  | cancelSemaphore (id : ObjectId) (count : Int32) (waitingAddress : UInt32)
  | referSemaphore (id : ObjectId) (address : UInt32)
  | createEventFlag (name : String) (attributes initialPattern : UInt32)
  | deleteEventFlag (id : ObjectId)
  | setEventFlag (id : ObjectId) (bits : UInt32)
  | clearEventFlag (id : ObjectId) (bits : UInt32)
  | waitEventFlag (id : ObjectId) (r : EventRequest) (timeoutAddress : UInt32) (callbacks : Bool)
  | pollEventFlag (id : ObjectId) (r : EventRequest)
  | cancelEventFlag (id : ObjectId) (pattern waitingAddress : UInt32)
  | referEventFlag (id : ObjectId) (address : UInt32)
  | createMutex (name : String) (attributes : UInt32) (initialCount : Int32)
  | deleteMutex (id : ObjectId)
  | lockMutex (id : ObjectId) (count : Int32) (timeoutAddress : UInt32) (callbacks : Bool)
  | tryLockMutex (id : ObjectId) (count : Int32)
  | unlockMutex (id : ObjectId) (count : Int32)
  | cancelMutex (id : ObjectId) (count : Int32) (waitingAddress : UInt32)
  | referMutex (id : ObjectId) (address : UInt32)
  | createPipe (name : String) (partition : PartitionId) (attributes size : UInt32)
  | deletePipe (id : ObjectId)
  | sendPipe (id : ObjectId) (r : PipeRequest) (timeoutAddress : UInt32) (callbacks : Bool)
  | trySendPipe (id : ObjectId) (r : PipeRequest)
  | receivePipe (id : ObjectId) (r : PipeRequest) (timeoutAddress : UInt32) (callbacks : Bool)
  | tryReceivePipe (id : ObjectId) (r : PipeRequest)
  | cancelPipe (id : ObjectId) (sendersAddress receiversAddress : UInt32)
  | referPipe (id : ObjectId) (address : UInt32)
  | systemTime
  | systemTimeLow
  | writeSystemTime (address : UInt32)
  | allocateMemory (partition : PartitionId) (name : String) (kind size address : UInt32)
  | freeMemory (id : ObjectId)
  | blockAddress (id : ObjectId)
  | maxFreeMemory
  | totalFreeMemory
deriving DecidableEq

/-- What a call that succeeds tells its caller. -/
inductive Answer where
  | done
  | word (w : UInt32)
  | signed (v : Int32)
  | flag (b : Bool)
  | ticks (t : UInt64)
  | outcome (o : WaitOutcome)
deriving DecidableEq

end GuestKernel
