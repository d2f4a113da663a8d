/-
# Causes of failure

Every kernel call either succeeds or fails for one of the causes below. A cause has a text for people
(`message`) and a status word for the guest (`code`). An unknown id is one cause with the kind of object that
was asked for.

Source: specification, 7.
-/

import GuestKernel.Word

namespace GuestKernel

/-- The id under which an object is known to the guest. -/
abbrev ObjectId := UInt32

/-- A thread is an object, so its id is an object id. -/
abbrev ThreadId := ObjectId

/-- The number of a memory partition. -/
abbrev PartitionId := UInt32

/-- The kinds of kernel object. -/
inductive ObjectKind where
  | thread
  | callback
  | semaphore
  | eventFlag
  | mutex
  | messagePipe
  | partitionMemory
deriving DecidableEq

namespace ObjectKind

/-- The kind's name in the journal. -/
def label : ObjectKind → String
  | thread => "Thread"
  | callback => "Callback"
  | semaphore => "Semaphore"
  | eventFlag => "EventFlag"
  | mutex => "Mutex"
  | messagePipe => "MessagePipe"
  | partitionMemory => "PartitionMemory"

/-- The kind's name inside an error message. -/
def noun : ObjectKind → String
  | thread => "thread"
  | callback => "callback"
  | semaphore => "semaphore"
  | eventFlag => "event flag"
  | mutex => "mutex"
  | messagePipe => "message pipe"
  | partitionMemory => "memory block"

/-- The status word of an unknown id of this kind. -/
def unknownCode : ObjectKind → UInt32
  | thread => 0x80020198
  | semaphore => 0x80020199
  | eventFlag => 0x8002019A
  | messagePipe => 0x8002019E
  | callback => 0x800201A1
  | mutex => 0x800201C3
  | partitionMemory => 0x800200CB

end ObjectKind

/-- Causes of a failed access to guest memory. -/
inductive MemoryError where
  | outOfMemory
  | invalidAddress (address : UInt32)
  | outOfBounds (address length : UInt32)
deriving DecidableEq

namespace MemoryError

def message : MemoryError → String
  | outOfMemory => "Out of memory"
  | invalidAddress a => "Invalid address: 0x" ++ hexWord a
  | outOfBounds a n =>
    "Access of " ++ toString n.toNat ++ " bytes at 0x" ++ hexWord a ++ " crosses the end of its region"

end MemoryError

/-- Causes of a failed kernel call. -/
inductive KernelError where
  /-- The id names no object of the wanted kind. -/
  | unknown (kind : ObjectKind) (id : ObjectId)
  | illegalArgument
  | illegalPriority (priority : Int32)
  | illegalStackSize (size : UInt32)
  | illegalThread (id : ThreadId)
  | illegalPartition (id : PartitionId)
  | illegalSize (size : UInt32)
  | illegalCount (count : Int32)
  | illegalMemorySize (size : UInt32)
  | illegalMemoryBlock (address : UInt32)
  /-- The call needs a running thread, or is barred while a callback runs. -/
  | illegalContext
  | memory (cause : MemoryError)
  | outOfMemory
  | resourceBusy
  | timeout
  | waitCancelled
  | waitDeleted
  | notImplemented
  | dormant
  | notDormant
  | suspended
  | notSuspended
  | semaphoreZero
  | semaphoreOverflow
  | eventFlagCondition
  | eventFlagMultiple
  | eventFlagPattern
  | pipeFull
  | pipeEmpty
  | mutexLocked
  | mutexUnlocked
  | mutexLockOverflow
  | mutexUnlockUnderflow
  | mutexRecursive
  | alreadyScheduled (id : ThreadId)
deriving DecidableEq

namespace KernelError

def message : KernelError → String
  | unknown kind id => "Unknown " ++ kind.noun ++ " id: 0x" ++ hex id.toNat
  | illegalArgument => "Illegal argument"
  | illegalPriority p => "Illegal priority: " ++ toString p.toInt
  | illegalStackSize n => "Illegal stack size: 0x" ++ hex n.toNat
  | illegalThread id => "Illegal thread for this operation: 0x" ++ hex id.toNat
  | illegalPartition id => "Illegal partition: " ++ toString id.toNat
  | illegalSize n => "Illegal size: 0x" ++ hex n.toNat
  | illegalCount n => "Illegal count: " ++ toString n.toInt
  | illegalMemorySize n => "Illegal memory size: 0x" ++ hex n.toNat
  | illegalMemoryBlock a => "Illegal memory block at 0x" ++ hexWord a
  | illegalContext => "Operation not allowed outside a thread context"
  | memory cause => "Guest memory fault: " ++ cause.message
  | outOfMemory => "Out of memory"
  | resourceBusy => "Resource busy"
  | timeout => "Wait timed out"
  | waitCancelled => "Wait cancelled"
  | waitDeleted => "Waited object was deleted"
  | notImplemented => "Not implemented"
  | dormant => "Thread is dormant"
  | notDormant => "Thread is not dormant"
  | suspended => "Thread is suspended"
  | notSuspended => "Thread is not suspended"
  | semaphoreZero => "Semaphore count is zero"
  | semaphoreOverflow => "Semaphore count overflow"
  | eventFlagCondition => "Event flag condition not satisfied"
  | eventFlagMultiple => "Event flag does not allow multiple waiters"
  | eventFlagPattern => "Illegal event flag pattern"
  | pipeFull => "Message pipe is full"
  | pipeEmpty => "Message pipe is empty"
  | mutexLocked => "Mutex is locked"
  | mutexUnlocked => "Mutex is not locked"
  | mutexLockOverflow => "Mutex lock count overflow"
  | mutexUnlockUnderflow => "Mutex unlock count underflow"
  | mutexRecursive => "Mutex does not allow recursive locking"
  | alreadyScheduled id => "Thread 0x" ++ hex id.toNat ++ " is already scheduled"

/-- The status word that the guest receives for a cause. -/
def status : KernelError → UInt32
  | unknown kind _ => kind.unknownCode
  | illegalArgument => 0x800200D2
  | illegalPriority _ => 0x80020193
  | illegalStackSize _ => 0x80020194
  | illegalThread _ => 0x80020197
  | illegalPartition _ => 0x800200D6
  | illegalSize _ => 0x800201BC
  | illegalCount _ => 0x800201BD
  | illegalMemorySize _ => 0x800201B7
  | illegalMemoryBlock _ => 0x800201B6
  | illegalContext => 0x80020064
  | memory .outOfMemory => 0x80020190
  | memory _ => 0x800200D3
  | outOfMemory => 0x80020190
  | resourceBusy => 0x80010010
  | timeout => 0x800201A8
  | waitCancelled => 0x800201A9
  | waitDeleted => 0x800201B5
  | notImplemented => 0x80020002
  | dormant => 0x800201A2
  | notDormant => 0x800201A4
  | suspended => 0x800201A3
  | notSuspended => 0x800201A5
  | semaphoreZero => 0x800201AD
  | semaphoreOverflow => 0x800201AE
  | eventFlagCondition => 0x800201AF
  | eventFlagMultiple => 0x800201B0
  | eventFlagPattern => 0x800201B1
  | pipeFull => 0x800201B3
  | pipeEmpty => 0x800201B4
  | mutexLocked => 0x800201C4
  | mutexUnlocked => 0x800201C5
  | mutexLockOverflow => 0x800201C6
  | mutexUnlockUnderflow => 0x800201C7
  | mutexRecursive => 0x800201C8
  | alreadyScheduled _ => 0x80020001

/-- The status word read as the signed value that a call returns. -/
def code (e : KernelError) : Int32 := e.status.toInt32

/-- Every status word has its top bit set, so the guest can tell a failure by its sign. -/
theorem code_neg (e : KernelError) : e.code < 0 := by
  cases e with
  | unknown kind _ => cases kind <;> simp only [code, status, ObjectKind.unknownCode] <;> decide
  | memory cause => cases cause <;> simp only [code, status] <;> decide
  | _ => simp only [code, status]; decide

/-- Whether the cause is an id that names no object of the wanted kind. -/
def isInvalidHandle : KernelError → Bool
  | unknown _ _ => true
  | _ => false

end KernelError

/-- Causes that end the program that hosts the kernel. -/
inductive HostError where
  | memory (cause : MemoryError)
  | kernel (cause : KernelError)
  | file
  | configuration
deriving DecidableEq

namespace HostError

def message : HostError → String
  | memory cause => "Memory error: " ++ cause.message
  | kernel cause => "Kernel error: " ++ cause.message
  | file => "IO error"
  | configuration => "Config error"

end HostError

end GuestKernel
