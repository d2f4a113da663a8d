/-
# The journal

What happens in the kernel is noted as events. An event has a severity, the component that reports it and a text;
all three are decided here and nowhere else.

Source: specification, 10.2.
-/

import GuestKernel.Object
import GuestKernel.ReadyQueue
import GuestKernel.Syscall.Return
import GuestKernel.Text.Terminal

namespace GuestKernel

/-- How serious an event is, most serious first. -/
inductive Severity where
  | error
  | warn
  | info
  | debug
  | trace
deriving DecidableEq

namespace Severity

def label : Severity → String
  | error => "ERROR"
  | warn => "WARN"
  | info => "INFO"
  | debug => "DEBUG"
  | trace => "TRACE"

/-- How many severities are at least as serious. -/
def rank : Severity → Nat
  | error => 1
  | warn => 2
  | info => 3
  | debug => 4
  | trace => 5

end Severity

/-- The parts of the system that report events. -/
inductive Component where
  | processor
  | memory
  | partitions
  | readyQueue
  | objects
  | kernel
  | threads
  | waiting
  | callbacks
  | eventFlags
  | mutexes
  | messagePipes
  | partitionMemory
  | syscalls
  | host

/-- The path under which a component reports. -/
def Component.path : Component → String
  | processor => "psp_core::cpu"
  | memory => "psp_memory::manager"
  | partitions => "psp_kernel::partition"
  | readyQueue => "psp_kernel::scheduler"
  | objects => "psp_kernel::objects"
  | kernel => "psp_kernel::kernel"
  | threads => "psp_kernel::thread"
  | waiting => "psp_kernel::wait"
  | callbacks => "psp_kernel::callback"
  | eventFlags => "psp_kernel::sync::event_flag"
  | mutexes => "psp_kernel::sync::mutex"
  | messagePipes => "psp_kernel::sync::msgpipe"
  | partitionMemory => "psp_kernel::memory"
  | syscalls => "psp_kernel::syscall"
  | host => "oxidized_psp"

/-- What can be noted. -/
inductive Event where
  | contextAllocated (context : ContextId) (entry : UInt32)
  | unknownContextReleased (context : ContextId)
  | registerOutOfRange (index : Nat)
  | unknownContextWritten (context : ContextId)
  | regionMapped (region : RegionKind)
  | faulted (fault : Fault)
  | blockAllocated (partition : String) (block : Block)
  | allocationFailed (partition name : String) (size : UInt32) (placement : Placement)
  | blockFreed (partition : String) (block : Block)
  | foreignBlockFreed (partition : String) (block : Block)
  | scheduled (entry : ReadyEntry) (slot : Nat)
  | registered (kind : ObjectKind) (name : String) (id : ObjectId)
  | unregistered (kind : ObjectKind) (id : ObjectId)
  | partitionAdded (partition : Partition)
  | partitionReplaced (id : PartitionId)
  | dispatchDuringCallback (callback : ObjectId) (thread : ThreadId)
  | unknownThreadReady (thread : ThreadId)
  | dispatched (thread : ThreadId)
  | readyWithoutContext (thread : ThreadId)
  | scheduleSkipped (cause : KernelError)
  | stackOutsideMemory (thread : String) (cause : MemoryError)
  | threadCreated (name : String) (id : ThreadId) (entry priority : UInt32) (stack : Block)
  | threadStarted (name : String) (id : ThreadId) (entry : UInt32)
  | threadExited (name : String) (id : ThreadId) (exitCode : Int32)
  | stackNotCleared (thread : String) (cause : MemoryError)
  | threadDeleted (name : String) (id : ThreadId)
  | threadSuspended (thread : ThreadId)
  | threadResumed (thread : ThreadId)
  | waitBegun (thread : ThreadId) (kind : WaitKind) (handle : ObjectId)
  | unknownThreadWoken (thread : ThreadId)
  | idleThreadWoken (thread : ThreadId)
  | timeoutNotWritten (thread : ThreadId) (cause : MemoryError)
  | woken (thread : ThreadId) (kind : WaitKind) (result : Int32)
  | waiterNotQueued (thread : ThreadId) (handle : ObjectId)
  | waitedObjectGone (handle : ObjectId)
  | timedOut (thread : ThreadId) (kind : WaitKind)
  | callbackGone (callback : ObjectId) (cause : KernelError)
  | callbackNotified (callback : ObjectId) (count : UInt32)
  | callbackDelivered (callback : ObjectId) (thread : ThreadId)
  | callbackRetired (callback : ObjectId) (value : Int32)
  | callbackAlreadyRetired (callback : ObjectId) (cause : KernelError)
  | patternNotReported (flag : ObjectId) (thread : ThreadId) (cause : KernelError)
  | mutexHanded (mutex : ObjectId) (thread : ThreadId)
  | pipeCreated (name : String) (id : ObjectId) (partition : PartitionId) (block : Block)
  | receiveFailed (pipe : ObjectId) (address : UInt32) (cause : KernelError)
  | received (pipe : ObjectId) (thread : ThreadId) (count : Nat)
  | sendFailed (pipe : ObjectId) (address : UInt32) (cause : MemoryError)
  | sent (pipe : ObjectId) (thread : ThreadId) (count : Nat)
  | pipeRequestDropped (pipe : ObjectId) (thread : ThreadId) (cause : KernelError)
  | guestBlockAllocated (partition : PartitionId) (id : ObjectId) (block : Block)
  | unknownCall (nid : UInt32)
  | callNotImplemented (name : String) (nid : UInt32)
  | callEntered (name : String) (arguments : List UInt32)
  | callReturned (name : String) (result : CallReturn)
  | callFailed (name : String) (cause : KernelError)
  | callWithoutThread (nid : UInt32)
  | runningWithoutContext (thread : ThreadId)
  | hostStarted
  | guestRegion (region : RegionKind)
  | mainThreadRuns (thread : ThreadId) (context : ContextId)
  | partitionReport (partition : Partition)

namespace Event

def severity : Event → Severity
  | contextAllocated .. => .trace
  | unknownContextReleased .. => .warn
  | registerOutOfRange .. => .warn
  | unknownContextWritten .. => .warn
  | regionMapped .. => .debug
  | faulted .. => .error
  | blockAllocated .. => .trace
  | allocationFailed .. => .debug
  | blockFreed .. => .trace
  | foreignBlockFreed .. => .error
  | scheduled .. => .trace
  | registered .. => .debug
  | unregistered .. => .debug
  | partitionAdded .. => .debug
  | partitionReplaced .. => .warn
  | dispatchDuringCallback .. => .warn
  | unknownThreadReady .. => .error
  | dispatched .. => .trace
  | readyWithoutContext .. => .error
  | scheduleSkipped .. => .error
  | stackOutsideMemory .. => .warn
  | threadCreated .. => .debug
  | threadStarted .. => .info
  | threadExited .. => .info
  | stackNotCleared .. => .warn
  | threadDeleted .. => .debug
  | threadSuspended .. => .debug
  | threadResumed .. => .debug
  | waitBegun .. => .trace
  | unknownThreadWoken .. => .warn
  | idleThreadWoken .. => .warn
  | timeoutNotWritten .. => .warn
  | woken .. => .trace
  | waiterNotQueued .. => .debug
  | waitedObjectGone .. => .debug
  | timedOut .. => .trace
  | callbackGone .. => .debug
  | callbackNotified .. => .trace
  | callbackDelivered .. => .debug
  | callbackRetired .. => .debug
  | callbackAlreadyRetired .. => .debug
  | patternNotReported .. => .warn
  | mutexHanded .. => .trace
  | pipeCreated .. => .debug
  | receiveFailed .. => .warn
  | received .. => .trace
  | sendFailed .. => .warn
  | sent .. => .trace
  | pipeRequestDropped .. => .warn
  | guestBlockAllocated .. => .debug
  | unknownCall .. => .warn
  | callNotImplemented .. => .warn
  | callEntered .. => .debug
  | callReturned .. => .debug
  | callFailed .. => .debug
  | callWithoutThread .. => .error
  | runningWithoutContext .. => .error
  | hostStarted => .info
  | guestRegion .. => .debug
  | mainThreadRuns .. => .info
  | partitionReport .. => .info

def component : Event → Component
  | contextAllocated .. => .processor
  | unknownContextReleased .. => .processor
  | registerOutOfRange .. => .processor
  | unknownContextWritten .. => .processor
  | regionMapped .. => .memory
  | faulted .. => .memory
  | blockAllocated .. => .partitions
  | allocationFailed .. => .partitions
  | blockFreed .. => .partitions
  | foreignBlockFreed .. => .partitions
  | scheduled .. => .readyQueue
  | registered .. => .objects
  | unregistered .. => .objects
  | partitionAdded .. => .kernel
  | partitionReplaced .. => .kernel
  | dispatchDuringCallback .. => .kernel
  | unknownThreadReady .. => .kernel
  | dispatched .. => .kernel
  | readyWithoutContext .. => .kernel
  | scheduleSkipped .. => .kernel
  | stackOutsideMemory .. => .threads
  | threadCreated .. => .threads
  | threadStarted .. => .threads
  | threadExited .. => .threads
  | stackNotCleared .. => .threads
  | threadDeleted .. => .threads
  | threadSuspended .. => .threads
  | threadResumed .. => .threads
  | waitBegun .. => .waiting
  | unknownThreadWoken .. => .waiting
  | idleThreadWoken .. => .waiting
  | timeoutNotWritten .. => .waiting
  | woken .. => .waiting
  | waiterNotQueued .. => .waiting
  | waitedObjectGone .. => .waiting
  | timedOut .. => .waiting
  | callbackGone .. => .callbacks
  | callbackNotified .. => .callbacks
  | callbackDelivered .. => .callbacks
  | callbackRetired .. => .callbacks
  | callbackAlreadyRetired .. => .callbacks
  | patternNotReported .. => .eventFlags
  | mutexHanded .. => .mutexes
  | pipeCreated .. => .messagePipes
  | receiveFailed .. => .messagePipes
  | received .. => .messagePipes
  | sendFailed .. => .messagePipes
  | sent .. => .messagePipes
  | pipeRequestDropped .. => .messagePipes
  | guestBlockAllocated .. => .partitionMemory
  | unknownCall .. => .syscalls
  | callNotImplemented .. => .syscalls
  | callEntered .. => .syscalls
  | callReturned .. => .syscalls
  | callFailed .. => .syscalls
  | callWithoutThread .. => .syscalls
  | runningWithoutContext .. => .syscalls
  | hostStarted => .host
  | guestRegion .. => .host
  | mainThreadRuns .. => .host
  | partitionReport .. => .host

/-- An id in a text. -/
def idText (id : UInt32) : String := "0x" ++ hex id.toNat

/-- An address in a text. -/
def addressText (a : UInt32) : String := "0x" ++ hexWord a

/-- A number of bytes in a text. -/
def bytesText (n : Nat) : String := "(0x" ++ hex n ++ " bytes)"

def faultText : Fault → String
  | .untranslatable a => "Translation of unmapped address " ++ addressText a
  | .unmapped a => "Access to unmapped address " ++ addressText a
  | .overrun a n region =>
    "Access of 0x" ++ hex n ++ " bytes at " ++ addressText a ++ " runs past the end of " ++ region.title

def text : Event → String
  | contextAllocated c entry => "Allocated context " ++ toString c.toNat ++ " at entry " ++ addressText entry
  | unknownContextReleased c => "Release of unknown context " ++ toString c.toNat
  | registerOutOfRange i => "Register index " ++ toString i ++ " out of range"
  | unknownContextWritten c => "set_register on unknown context " ++ toString c.toNat
  | regionMapped r => "Mapped " ++ r.title ++ " at " ++ addressText r.base ++ " " ++ bytesText r.size.toNat
  | faulted f => faultText f
  | blockAllocated p b =>
    "Partition " ++ p ++ ": '" ++ b.name ++ "' at " ++ addressText b.address ++ " " ++ bytesText b.size.toNat
  | allocationFailed p name size placement =>
    "Partition " ++ p ++ " cannot fit 0x" ++ hex size.toNat ++ " bytes (" ++ placement.label ++ ") for '" ++
      name ++ "'"
  | blockFreed p b => "Partition " ++ p ++ ": freed '" ++ b.name ++ "' at " ++ addressText b.address
  | foreignBlockFreed p b =>
    "Partition " ++ p ++ ": free of unowned block '" ++ b.name ++ "' at " ++ addressText b.address ++
      " (double free?)"
  | scheduled e slot =>
    "Scheduled " ++ idText e.thread ++ " (priority " ++ toString e.priority.toNat ++ ") at slot " ++ toString slot
  | registered kind name id => "Registered " ++ kind.label ++ " '" ++ name ++ "' as " ++ idText id
  | unregistered kind id => "Unregistered " ++ kind.label ++ " " ++ idText id
  | partitionAdded p =>
    "Partition " ++ toString p.id.toNat ++ " '" ++ p.name ++ "' at " ++ addressText p.base ++ " " ++
      bytesText p.size.toNat
  | partitionReplaced id => "Partition " ++ toString id.toNat ++ " configured twice, keeping the last one"
  | dispatchDuringCallback c t =>
    "Dispatch while callback " ++ idText c ++ " still runs on thread " ++ idText t
  | unknownThreadReady t => "Ready queue held unknown thread " ++ idText t
  | dispatched t => "Dispatching thread " ++ idText t
  | readyWithoutContext t => "Ready thread " ++ idText t ++ " has no context"
  | scheduleSkipped cause => "Skipping ready queue insert: " ++ cause.message
  | stackOutsideMemory t cause => "Stack of '" ++ t ++ "' is outside guest memory: " ++ cause.message
  | threadCreated name id entry priority stack =>
    "Created thread '" ++ name ++ "' (" ++ idText id ++ ") entry " ++ addressText entry ++ " priority " ++
      toString priority.toNat ++ " stack " ++ addressText stack.address ++ "+0x" ++ hex stack.size.toNat
  | threadStarted name id entry =>
    "Started thread '" ++ name ++ "' (" ++ idText id ++ ") at " ++ addressText entry
  | threadExited name id exitCode =>
    "Thread '" ++ name ++ "' (" ++ idText id ++ ") exited with " ++ idText exitCode.toUInt32
  | stackNotCleared t cause => "Cannot clear stack of '" ++ t ++ "': " ++ cause.message
  | threadDeleted name id => "Deleted thread '" ++ name ++ "' (" ++ idText id ++ ")"
  | threadSuspended t => "Suspended thread " ++ idText t
  | threadResumed t => "Resumed thread " ++ idText t
  | waitBegun t kind handle => "Thread " ++ idText t ++ " waits on " ++ kind.label ++ " " ++ idText handle
  | unknownThreadWoken t => "Wake of unknown thread " ++ idText t
  | idleThreadWoken t => "Wake of thread " ++ idText t ++ " which is not waiting"
  | timeoutNotWritten t cause =>
    "Thread " ++ idText t ++ ": cannot write remaining timeout: " ++ cause.message
  | woken t kind result =>
    "Woke thread " ++ idText t ++ " from " ++ kind.label ++ " with " ++ addressText result.toUInt32
  | waiterNotQueued t handle => "Thread " ++ idText t ++ " was not queued on " ++ idText handle
  | waitedObjectGone handle => "Waited object " ++ idText handle ++ " is gone"
  | timedOut t kind => "Thread " ++ idText t ++ " timed out on " ++ kind.label
  | callbackGone c cause => "Callback " ++ idText c ++ " already gone: " ++ cause.message
  | callbackNotified c count =>
    "Notified callback " ++ idText c ++ " (count " ++ toString count.toNat ++ ")"
  | callbackDelivered c t => "Delivering callback " ++ idText c ++ " on thread " ++ idText t
  | callbackRetired c value =>
    "Callback " ++ idText c ++ " returned " ++ idText value.toUInt32 ++ ", deleting it"
  | callbackAlreadyRetired c cause => "Callback " ++ idText c ++ " deleted itself: " ++ cause.message
  | patternNotReported f t cause =>
    "Event flag " ++ idText f ++ ": cannot report pattern to " ++ idText t ++ ": " ++ cause.message
  | mutexHanded m t => "Mutex " ++ idText m ++ " handed to thread " ++ idText t
  | pipeCreated name id partition block =>
    "Created pipe '" ++ name ++ "' " ++ idText id ++ " in partition " ++ toString partition.toNat ++ " (0x" ++
      hex block.size.toNat ++ " bytes at " ++ addressText block.address ++ ")"
  | receiveFailed p a cause =>
    "Pipe " ++ idText p ++ ": receive into " ++ addressText a ++ " failed: " ++ cause.message
  | received p t n =>
    "Pipe " ++ idText p ++ ": thread " ++ idText t ++ " received " ++ toString n ++ " bytes"
  | sendFailed p a cause =>
    "Pipe " ++ idText p ++ ": send from " ++ addressText a ++ " failed: " ++ cause.message
  | sent p t n => "Pipe " ++ idText p ++ ": thread " ++ idText t ++ " sent " ++ toString n ++ " bytes"
  | pipeRequestDropped p t cause =>
    "Pipe " ++ idText p ++ ": dropping request of thread " ++ idText t ++ ": " ++ cause.message
  | guestBlockAllocated partition id block =>
    "Partition " ++ toString partition.toNat ++ " block '" ++ block.name ++ "' " ++ idText id ++ " at " ++
      addressText block.address ++ " " ++ bytesText block.size.toNat
  | unknownCall nid => "Unknown syscall NID " ++ addressText nid
  | callNotImplemented name nid => name ++ " (" ++ addressText nid ++ ") is not implemented"
  | callEntered name arguments =>
    name ++ "([" ++ String.intercalate ", " (arguments.map hexWord) ++ "])"
  | callReturned name result => name ++ " -> " ++ result.label
  | callFailed name cause => name ++ " failed: " ++ cause.message
  | callWithoutThread nid => "Syscall " ++ addressText nid ++ " without a running thread"
  | runningWithoutContext t => "Running thread " ++ idText t ++ " has no context"
  | hostStarted => "Starting oxidized-psp HLE kernel"
  | guestRegion r =>
    "Guest region " ++ r.label ++ " at " ++ addressText r.base ++ " " ++ bytesText r.size.toNat
  | mainThreadRuns t c => "Main thread " ++ idText t ++ " runs on context " ++ toString c.toNat
  | partitionReport p =>
    "Partition " ++ toString p.id.toNat ++ " '" ++ p.name ++ "': 0x" ++ hex p.freeBytes.toNat ++ " of 0x" ++
      hex p.size.toNat ++ " bytes free"

/-- The event as a line with its severity. -/
def line (e : Event) : String := e.severity.label ++ " " ++ e.text

/-- The event as a line of the log, with its severity and component. -/
def fullLine (e : Event) : String :=
  e.severity.label ++ " " ++ e.component.path ++ ": " ++ Terminal.plain e.text

end Event

/-- A threshold for events: the most that is let through, or nothing at all. -/
inductive LogLevel where
  | off
  | error
  | warn
  | info
  | debug
  | trace
deriving DecidableEq

namespace LogLevel

/-- How many severities a threshold lets through. -/
def rank : LogLevel → Nat
  | off => 0
  | error => 1
  | warn => 2
  | info => 3
  | debug => 4
  | trace => 5

/-- Whether a threshold lets an event through. -/
def admits (l : LogLevel) (e : Event) : Bool := e.severity.rank ≤ l.rank

/-- The threshold's name in a configuration. -/
def name : LogLevel → String
  | off => "Off"
  | error => "Error"
  | warn => "Warn"
  | info => "Info"
  | debug => "Debug"
  | trace => "Trace"

/-- The threshold as a filter directive. -/
def directive : LogLevel → String
  | off => "off"
  | error => "error"
  | warn => "warn"
  | info => "info"
  | debug => "debug"
  | trace => "trace"

def all : List LogLevel := [off, error, warn, info, debug, trace]

/-- The threshold of a name. -/
def ofName? (s : String) : Option LogLevel := all.find? (·.name == s)

/-- The threshold of a filter directive. -/
def ofDirective? (s : String) : Option LogLevel := all.find? (·.directive == s)

/-- The threshold that a filter text sets: a directive in any case, or the number of severities let through. An empty
text lets errors through. -/
def ofFilter? (s : String) : Option LogLevel :=
  if s.isEmpty then some error
  else all.find? fun l => l.directive == s.toLower || toString l.rank == s

theorem ofName?_name (l : LogLevel) : ofName? l.name = some l := by
  cases l <;> decide

end LogLevel

end GuestKernel
