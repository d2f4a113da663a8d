/-
# Threads

A thread record and its status.

| status | bit | meaning |
| --- | ---: | --- |
| running | `0x01` | on the processor |
| ready | `0x02` | in the ready queue |
| waiting | `0x04` | parked with a wait |
| suspended | `0x08` | on hold; may also be waiting |
| stopped | `0x10` | created and not started |
| dead | `0x20` | exited and not deleted |

A lower priority value runs first; values from 1 to 126 are legal.

Source: specification, 3 and 4.2.
-/

import GuestKernel.Context
import GuestKernel.Partition
import GuestKernel.Wait

namespace GuestKernel

/-- The status bits of a thread; `rest` holds the bits without a meaning. -/
structure ThreadStatus where
  running : Bool := false
  ready : Bool := false
  waiting : Bool := false
  suspended : Bool := false
  stopped : Bool := false
  dead : Bool := false
  rest : UInt32 := 0
deriving DecidableEq

namespace ThreadStatus

/-- The status word as the guest sees it. -/
def toBits (s : ThreadStatus) : UInt32 :=
  (if s.running then 0x01 else 0) ||| (if s.ready then 0x02 else 0) ||| (if s.waiting then 0x04 else 0) |||
  (if s.suspended then 0x08 else 0) ||| (if s.stopped then 0x10 else 0) ||| (if s.dead then 0x20 else 0) |||
  s.rest

/-- The status that a word stands for. -/
def ofBits (w : UInt32) : ThreadStatus where
  running := w &&& 0x01 != 0
  ready := w &&& 0x02 != 0
  waiting := w &&& 0x04 != 0
  suspended := w &&& 0x08 != 0
  stopped := w &&& 0x10 != 0
  dead := w &&& 0x20 != 0
  rest := w &&& 0xFFFFFFC0

def onlyRunning : ThreadStatus := { running := true }
def onlyReady : ThreadStatus := { ready := true }
def onlyWaiting : ThreadStatus := { waiting := true }
def onlySuspended : ThreadStatus := { suspended := true }
def waitSuspended : ThreadStatus := { waiting := true, suspended := true }
def onlyStopped : ThreadStatus := { stopped := true }
def onlyDead : ThreadStatus := { dead := true }

/-- Neither started nor alive: the thread will not run by itself. -/
def dormant (s : ThreadStatus) : Bool := s.stopped || s.dead

/-- The status of a thread that begins a wait. -/
def park (s : ThreadStatus) : ThreadStatus := { s with running := false, ready := false, waiting := true }

/-- The status of a thread whose wait ends: ready, unless it is suspended. -/
def unpark (s : ThreadStatus) : ThreadStatus :=
  { s with waiting := false, ready := s.ready || !s.suspended }

/-- The status of a thread put on hold. -/
def suspend (s : ThreadStatus) : ThreadStatus := if s.waiting then waitSuspended else onlySuspended

end ThreadStatus

/-- The least and greatest legal priority values. -/
def minPriority : UInt32 := 1
def maxPriority : UInt32 := 126

/-- Stacks and thread-local blocks start at multiples of this. -/
def stackAlignment : UInt32 := 0x100

/-- The exit status of a thread that another one killed. -/
def terminatedStatus : Int32 := (0x800201AC : UInt32).toInt32

/-- A guest thread. -/
structure Thread where
  id : ThreadId
  name : String
  entry : UInt32
  attributes : UInt32
  /-- The priority the thread was created with. -/
  initialPriority : UInt32
  status : ThreadStatus := .onlyStopped
  priority : UInt32
  globalPointer : UInt32
  exitCode : Int32 := 0
  stack : Option Block
  localStorage : Option Block
  context : Option ContextId := none
  wait : Option Wait := none
  /-- Threads joined on this one, in arrival order. -/
  exitWaiters : List ThreadId := []
  /-- Wakeups that came while the thread was not asleep. -/
  wakeups : UInt32 := 0
  /-- The thread's callbacks, in creation order. -/
  callbacks : List ObjectId := []
  /-- Whether pending callbacks run at the next dispatch although the thread does not wait. -/
  checksCallbacks : Bool := false
  /-- The result of the last wake. -/
  wakeResult : Int32 := 0
deriving DecidableEq

namespace Thread

/-- Whether attributes leave the bytes of a new stack as they were. -/
def keepsStack (attributes : UInt32) : Bool := attributes &&& 0x00100000 != 0

/-- Whether the stack is cleared when the thread is deleted. -/
def clearsStack (t : Thread) : Bool := t.attributes &&& 0x00200000 != 0

def isDormant (t : Thread) : Bool := t.status.dormant

/-- The registers a thread starts with. -/
def initialRegisters (t : Thread) (argumentLength argumentAddress : UInt32) : Registers :=
  (Vector.replicate 32 0)
    |>.set Register.a0 argumentLength
    |>.set Register.a1 argumentAddress
    |>.set Register.k0 ((t.localStorage.map (·.address)).getD 0)
    |>.set Register.gp t.globalPointer
    |>.set Register.sp ((t.stack.map (·.upperBound)).getD 0)

/-- The thread as it begins a wait. -/
def park (t : Thread) (w : Wait) : Thread :=
  { t with status := t.status.park, wait := some w, wakeResult := 0 }

/-- The thread as its wait ends with a result. -/
def unpark (t : Thread) (result : Int32) : Thread :=
  { t with status := t.status.unpark, wait := none, wakeResult := result }

/-- The thread as it dies. -/
def die (t : Thread) (exitCode : Int32) : Thread :=
  { t with status := .onlyDead, exitCode, exitWaiters := [], wait := none }

/-- The thread without the memory, context and callbacks it held. -/
def strip (t : Thread) : Thread :=
  { t with stack := none, localStorage := none, context := none, callbacks := [] }

/-- Whether callbacks may interrupt the thread now: it waits and lets them, or it runs and asked for them. -/
def admitsCallbacks (t : Thread) : Bool :=
  (t.status.waiting && !t.status.suspended && (t.wait.map (·.callbacks)).getD false) ||
  (t.checksCallbacks && (t.status == .onlyReady || t.status == .onlyRunning))

end Thread

end GuestKernel
