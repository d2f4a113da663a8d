import GuestKernel.Word
import GuestKernel.Error
import GuestKernel.Clock
import GuestKernel.ReadyQueue
import GuestKernel.Partition
import GuestKernel.Text.Utf8
import GuestKernel.Text.Terminal
import GuestKernel.Memory
import GuestKernel.Context
import GuestKernel.Wait
import GuestKernel.WaitQueue
import GuestKernel.Thread
import GuestKernel.Callback
import GuestKernel.Semaphore
import GuestKernel.EventFlag
import GuestKernel.Mutex
import GuestKernel.MessagePipe
import GuestKernel.Object
import GuestKernel.Syscall.Return
import GuestKernel.Journal.Event
import GuestKernel.Journal.Report
import GuestKernel.Config.Basic
import GuestKernel.Kernel.Basic
import GuestKernel.Kernel.Waiting
import GuestKernel.Kernel.Dispatch
import GuestKernel.Kernel.Callbacks
import GuestKernel.Kernel.Threads
import GuestKernel.Kernel.StatusBlock
import GuestKernel.Kernel.Semaphores
import GuestKernel.Kernel.EventFlags
import GuestKernel.Kernel.Mutexes
import GuestKernel.Kernel.MessagePipes
import GuestKernel.Kernel.PartitionMemory
import GuestKernel.Syscall.Call
import GuestKernel.Syscall.Perform
import GuestKernel.Syscall.Table
import GuestKernel.Syscall.Handler
import GuestKernel.Kernel.Operation
import GuestKernel.Toml.Value
import GuestKernel.Toml.Quoted
import GuestKernel.Toml.Scalar
import GuestKernel.Toml.Table
import GuestKernel.Toml.Statement
import GuestKernel.Config.Reading
import GuestKernel.Config.Writing
import GuestKernel.Boot
import GuestKernel.Main
import GuestKernel.Proofs.Lookup
import GuestKernel.Proofs.ReadyOrder
import GuestKernel.Proofs.Changes
import GuestKernel.Proofs.Moves
import GuestKernel.Proofs.WaitMoves
import GuestKernel.Proofs.ThreadMoves
import GuestKernel.Proofs.SyncMoves
import GuestKernel.Proofs.PipeMoves
import GuestKernel.Proofs.OperationMoves
import GuestKernel.Proofs.ObjectMoves
import GuestKernel.Proofs.Coherence
import GuestKernel.Proofs.QueueEntries
import GuestKernel.Proofs.WaitBooks
import GuestKernel.Proofs.PipeStream
import GuestKernel.Proofs.Settled
import GuestKernel.Proofs.PartitionBlocks
import GuestKernel.Proofs.Holdings
import GuestKernel.Proofs.Ownership
import GuestKernel.Proofs.FailedCalls
import GuestKernel.Proofs.MutexOwnership
import GuestKernel.Proofs.WaitRecords
import GuestKernel.Proofs.SemaphoreUnits
import GuestKernel.Proofs.EventWaiters
import GuestKernel.Proofs.ThreadSteps
import GuestKernel.Proofs.ThreadContexts
import GuestKernel.Proofs.Timeouts
import GuestKernel.Proofs.CallbackDelivery
import GuestKernel.Proofs.PartitionSpace
import GuestKernel.Proofs.BlockingCalls
import GuestKernel.Proofs.DispatchOrder
import GuestKernel.Proofs.Joins
import GuestKernel.Proofs.LifeCycle
import GuestKernel.Proofs.CallReturns
import GuestKernel.Proofs.ClockSteps
import GuestKernel.Proofs.QueueLines
import GuestKernel.Proofs.ServiceOrder
import GuestKernel.Proofs.HeldThreads
import GuestKernel.Proofs.HeldCalls
import GuestKernel.Proofs.Suspension
import GuestKernel.Proofs.ThreadRecords
import GuestKernel.Proofs.PriorityOrder
import GuestKernel.Proofs.Accounts
import GuestKernel.Proofs.SleepWakeups
import GuestKernel.Proofs.CallbackLists
import GuestKernel.Proofs.CallbackChoice
import GuestKernel.Proofs.CallbackNotifications
import GuestKernel.Proofs.CallbackRequests
import GuestKernel.Proofs.BlockPlacement
import GuestKernel.Proofs.MemoryAccess
import GuestKernel.Proofs.ContextOwners
import GuestKernel.Proofs.HandleGraph
import GuestKernel.Proofs.TextBytes
import GuestKernel.Proofs.QuotedText
import GuestKernel.Proofs.ConfigLines
import GuestKernel.Proofs.ConfigText
import GuestKernel.Proofs.ReadyHistory
import GuestKernel.Proofs.SemaphoreSignals
import GuestKernel.Proofs.FailedEventCalls
import GuestKernel.Proofs.PipeRounds
import GuestKernel.Proofs.MemoryRanges
import GuestKernel.Proofs.GuestStrings
import GuestKernel.Proofs.StatusBlocks
import GuestKernel.Proofs.CheckedTransfers
import GuestKernel.Proofs.BlockEnds
