/-
# Waits

A thread that cannot go on is parked with a `Wait`: what it waits for, since when, until when, and where its results
go. A wait without a timeout has no deadline.

Source: specification, 3 and 4.4.
-/

import GuestKernel.Error

namespace GuestKernel

/-- What a thread waits for. -/
inductive WaitKind where
  | sleep
  | delay
  | semaphore
  | eventFlag
  | mailbox
  | variablePool
  | fixedPool
  | messagePipe
  | join
  | eventHandler
  | reserved
  | mutex
deriving DecidableEq

/-- The kind's name in the journal. -/
def WaitKind.label : WaitKind → String
  | sleep => "Sleep"
  | delay => "Delay"
  | semaphore => "Semaphore"
  | eventFlag => "EventFlag"
  | mailbox => "Mailbox"
  | variablePool => "VariablePool"
  | fixedPool => "FixedPool"
  | messagePipe => "MessagePipe"
  | join => "Join"
  | eventHandler => "EventHandler"
  | reserved => "Reserved"
  | mutex => "Mutex"

/-- All that is needed to resume a waiting thread. -/
structure Wait where
  kind : WaitKind
  /-- The object waited on; 0 for sleeps and delays. -/
  handle : ObjectId := 0
  /-- Ticks after which the wait ends by itself; 0 waits forever. -/
  timeout : UInt64 := 0
  /-- When the wait began. -/
  since : UInt64 := 0
  /-- Mode bits of an event flag or message pipe request. -/
  mode : UInt32 := 0
  /-- Units, bits or bytes asked for. -/
  argument : UInt32 := 0
  /-- Guest buffer of a transfer. -/
  address : UInt32 := 0
  /-- Guest word that receives the output of the request. -/
  resultAddress : UInt32 := 0
  /-- Guest word that held the timeout and receives what is left of it. -/
  timeoutAddress : UInt32 := 0
  /-- Whether callbacks may run meanwhile. -/
  callbacks : Bool := false
  /-- Whether a message pipe request sends. -/
  sending : Bool := false
deriving DecidableEq

/-- When the wait ends by itself. -/
def Wait.deadline? (w : Wait) : Option UInt64 :=
  if w.timeout = 0 then none else some (saturatingAdd w.since w.timeout)

/-- What is left of the timeout at time `now`, as the word that the guest is told. -/
def Wait.remaining? (w : Wait) (now : UInt64) : Option UInt32 :=
  w.deadline?.map fun deadline =>
    UInt32.ofNat (min (deadline.toNat - now.toNat) (UInt32.size - 1))

/-- How a call that may block ended. -/
inductive WaitOutcome where
  /-- Finished at once with a value. -/
  | completed (value : Int32)
  /-- The caller is parked; its result comes when it wakes. -/
  | blocked
deriving DecidableEq

end GuestKernel
