/-
# Thread calls

The life of a thread: created stopped, started once, exited at most once, deleted at the end. In between it runs, waits,
sleeps and may be put on hold.

Source: specification, 4.2.
-/

import GuestKernel.Kernel.Callbacks

namespace GuestKernel
namespace Kernel

/-- Only priorities from 1 to 126 are legal. -/
def checkPriority (priority : UInt32) : Except KernelError Unit :=
  if minPriority ≤ priority ∧ priority ≤ maxPriority then .ok ()
  else .error (.illegalPriority priority.toInt32)

/-- A stack size rounded up to the alignment, if it is large enough and the sum still fits a word. -/
def stackSize (k : Kernel) (wanted : UInt32) : Except KernelError UInt32 :=
  if wanted < k.config.minStackSize then .error (.illegalStackSize wanted)
  else if UInt32.size ≤ wanted.toNat + (stackAlignment.toNat - 1) then .error (.illegalStackSize wanted)
  else .ok ((wanted + (stackAlignment - 1)) &&& ~~~(stackAlignment - 1))

/-- The global pointer a new thread gets: the running thread's, or the configured one. -/
def inheritedPointer (k : Kernel) : UInt32 :=
  match k.current.bind k.thread? with
  | some t => t.globalPointer
  | none => k.config.moduleGp

/-- Allocates a stack and, unless its size is 0, a thread-local block; both or none. -/
def allocateStack (k : Kernel) (name : String) (size : UInt32) : Reply (Block × Option Block) :=
  let partition := k.config.threadPartition
  (k.allocateBlock partition ("stack:" ++ name) .high stackAlignment size).andThen fun stack k =>
    if k.config.tlsSize = 0 then k.done (stack, none)
    else
      match k.allocateBlock partition ("tls:" ++ name) .high stackAlignment k.config.tlsSize with
      | ⟨.ok tls, k⟩ => k.done (stack, some tls)
      | ⟨.error e, k⟩ => (k.freeBlock partition stack).andThen fun _ k => k.refuse e

/-- Fills a new stack with `0xFF`. -/
def fillStack (k : Kernel) (name : String) (stack : Block) : Kernel :=
  match k.memory.fill stack.address 0xFF stack.size.toNat with
  | .ok memory => { k with memory }
  | .error f => (k.note (.faulted f)).note (.stackOutsideMemory name f.error)

/-- Creates a stopped thread with its stack and thread-local block. -/
def createThread (k : Kernel) (name : String) (entry priority wantedStack attributes : UInt32) :
    Reply ThreadId :=
  match checkPriority priority with
  | .error e => k.refuse e
  | .ok () =>
    match k.stackSize wantedStack with
    | .error e => k.refuse e
    | .ok size =>
      let globalPointer := k.inheritedPointer
      (k.allocateStack name size).andThen fun (stack, localStorage) k =>
        let k := if Thread.keepsStack attributes then k else k.fillStack name stack
        let id := k.nextId
        let k := k.note (.threadCreated name id entry priority stack)
        let t : Thread :=
          { id, name, entry, attributes, initialPriority := priority, priority, globalPointer,
            stack := some stack, localStorage }
        (k.registerNew (.thread t)).done id

/-- The kernel in which a stopped thread has a context and is ready. -/
def launch (k : Kernel) (t : Thread) (context : ContextId) : Kernel :=
  let k := k.putThread { t with context := some context, status := .onlyReady }
  let k := if k.started.contains t.id then k else { k with started := k.started ++ [t.id] }
  k.schedule t.id t.priority

/-- Makes a stopped thread ready, with a context that starts at its entry. -/
def startThread (k : Kernel) (id : ThreadId) (argumentLength argumentAddress : UInt32) : Reply Unit :=
  match k.thread? id with
  | none => k.refuse (.unknown .thread id)
  | some t =>
    if t.status ≠ .onlyStopped then k.refuse .notDormant
    else
      let context := k.contexts.freshId
      let k := k.allocateContext t.entry (t.initialRegisters argumentLength argumentAddress)
      ((k.launch t context).note (.threadStarted t.name id t.entry)).done ()

/-- The kernel in which a thread is dead and off all queues. -/
def retire (k : Kernel) (t : Thread) (exitCode : Int32) : Kernel :=
  let k := k.putThread (t.die exitCode)
  let k := { k with ready := k.ready.remove t.id }
  let k : Kernel := match t.wait with
    | some w => k.detach t.id w
    | none => k
  if k.current = some t.id then { k with current := none } else k

/-- Ends a thread: it leaves the queues, and all that joined it go on. A dead thread stays as it is. -/
def exit (k : Kernel) (t : Thread) (exitCode : Int32) : Kernel :=
  if t.status.dead then k
  else ((k.retire t exitCode).note (.threadExited t.name t.id exitCode)).wakeAll t.exitWaiters 0

/-- Ends the thread of an id. -/
def exitThread (k : Kernel) (id : ThreadId) (exitCode : Int32) : Reply Unit :=
  match k.thread? id with
  | none => k.refuse (.unknown .thread id)
  | some t => (k.exit t exitCode).done ()

/-- Clears the stack of a thread that asked for it. -/
def clearStack (k : Kernel) (t : Thread) : Kernel :=
  match t.stack with
  | none => k
  | some stack =>
    if t.clearsStack then
      match k.memory.fill stack.address 0 stack.size.toNat with
      | .ok memory => { k with memory }
      | .error f => (k.note (.faulted f)).note (.stackNotCleared t.name f.error)
    else k

/-- Returns blocks to a partition, up to the first that it does not own. -/
def freeBlocks (k : Kernel) (partition : PartitionId) : List Block → Reply Unit
  | [] => k.done ()
  | b :: rest => (k.freeBlock partition b).andThen fun _ k => k.freeBlocks partition rest

/-- Takes back all that a dead thread holds and unregisters it. -/
def reclaim (k : Kernel) (t : Thread) : Reply Unit :=
  let k := (k.putThread t.strip).clearStack t
  let partition := k.config.threadPartition
  if (k.partitions[partition]?).isNone then k.refuse (.illegalPartition partition)
  else
    (k.freeBlocks partition (t.stack.toList ++ t.localStorage.toList)).andThen fun _ k =>
      let k := match t.context with
        | some context => k.releaseContext context
        | none => k
      let k := t.callbacks.foldl removeCallback k
      (k.unregister .thread t.id).andThen fun _ k =>
        (({ k with started := k.started.filter (· != t.id) }).note (.threadDeleted t.name t.id)).done ()

/-- Ends a thread if need be and deletes it. -/
def deleteThread (k : Kernel) (id : ThreadId) : Reply Unit :=
  match k.thread? id with
  | none => k.refuse (.unknown .thread id)
  | some t =>
    let k := k.exit t 0
    match k.thread? id with
    | none => k.refuse (.unknown .thread id)
    | some t => k.reclaim t

/-- The kernel in which a thread has another priority; a ready one is queued anew. -/
def reprioritise (k : Kernel) (t : Thread) (priority : UInt32) : Kernel :=
  let k := k.putThread { t with priority }
  if t.status = .onlyReady then ({ k with ready := k.ready.remove t.id }).schedule t.id priority else k

/-- Changes the priority of a thread; a ready one is queued anew. -/
def changePriority (k : Kernel) (id : ThreadId) (priority : UInt32) : Reply Unit :=
  match checkPriority priority with
  | .error e => k.refuse e
  | .ok () =>
    match k.thread? id with
    | none => k.refuse (.unknown .thread id)
    | some t =>
      if t.status.dead then k.refuse .dormant else (k.reprioritise t priority).done ()

/-- The kernel in which a thread is on hold; one that waits goes on waiting. -/
def hold (k : Kernel) (t : Thread) : Kernel :=
  { k.putThread { t with status := t.status.suspend } with ready := k.ready.remove t.id }

/-- Puts a thread other than the running one on hold. -/
def suspendThread (k : Kernel) (id : ThreadId) : Reply Unit :=
  if k.current = some id then k.refuse (.illegalThread id)
  else
    match k.thread? id with
    | none => k.refuse (.unknown .thread id)
    | some t =>
      if t.isDormant then k.refuse .dormant
      else if t.status.suspended then k.refuse .suspended
      else ((k.hold t).note (.threadSuspended id)).done ()

/-- The kernel in which a thread is not on hold; it is ready unless it still waits. -/
def unhold (k : Kernel) (t : Thread) : Kernel :=
  let status := { t.status with suspended := false }
  if status = {} then (k.putThread { t with status := .onlyReady }).schedule t.id t.priority
  else k.putThread { t with status }

/-- Ends the hold on a thread. -/
def resumeThread (k : Kernel) (id : ThreadId) : Reply Unit :=
  match k.thread? id with
  | none => k.refuse (.unknown .thread id)
  | some t =>
    if ¬ t.status.suspended then k.refuse .notSuspended
    else ((k.unhold t).note (.threadResumed id)).done ()

/-- Parks the running thread until it is woken up; a wakeup that came before counts. -/
def sleepThread (k : Kernel) (callbacks : Bool) : Reply WaitOutcome :=
  match k.current with
  | none => k.refuse .illegalContext
  | some id =>
    match k.thread? id with
    | none => k.refuse (.unknown .thread id)
    | some t =>
      if 0 < t.wakeups then (k.putThread { t with wakeups := t.wakeups - 1 }).done (.completed 0)
      else (k.beginWait { kind := .sleep, callbacks }).map fun _ => .blocked

/-- Wakes a thread that sleeps, or saves the wakeup for its next sleep. -/
def wakeupThread (k : Kernel) (id : ThreadId) : Reply Unit :=
  match k.thread? id with
  | none => k.refuse (.unknown .thread id)
  | some t =>
    if t.isDormant then k.refuse .dormant
    else if (t.wait.map (·.kind)) = some .sleep then (k.wake id 0).done ()
    else (k.putThread { t with wakeups := t.wakeups + 1 }).done ()

/-- Drops the saved wakeups of a thread and gives their number. -/
def cancelWakeup (k : Kernel) (id : ThreadId) : Reply UInt32 :=
  match k.thread? id with
  | none => k.refuse (.unknown .thread id)
  | some t => (k.putThread { t with wakeups := 0 }).done t.wakeups

/-- Parks the running thread for a time of at least one tick. -/
def delayThread (k : Kernel) (ticks : UInt64) (callbacks : Bool) : Reply WaitOutcome :=
  (k.beginWait { kind := .delay, timeout := max ticks 1, callbacks }).map fun _ => .blocked

/-- Parks the running thread until another one has exited. -/
def joinThread (k : Kernel) (id : ThreadId) (timeout : UInt64) (timeoutAddress : UInt32)
    (callbacks : Bool) : Reply WaitOutcome :=
  if k.current = some id then k.refuse (.illegalThread id)
  else
    match k.thread? id with
    | none => k.refuse (.unknown .thread id)
    | some target =>
      if target.isDormant then k.done (.completed 0)
      else
        (k.beginWait { kind := .join, handle := id, timeout, timeoutAddress, callbacks }).andThen
          fun me k =>
            (k.putThread { target with exitWaiters := target.exitWaiters ++ [me] }).done .blocked

/-- Ends a thread other than the running one. -/
def terminateThread (k : Kernel) (id : ThreadId) : Reply Unit :=
  if k.current = some id then k.refuse (.illegalThread id)
  else
    match k.thread? id with
    | none => k.refuse (.unknown .thread id)
    | some t => if t.isDormant then k.refuse .dormant else (k.exit t terminatedStatus).done ()

/-- The exit code of a thread that does not run. -/
def exitStatus (k : Kernel) (id : ThreadId) : Except KernelError Int32 :=
  match k.thread? id with
  | none => .error (.unknown .thread id)
  | some t => if t.isDormant then .ok t.exitCode else .error .notDormant

end Kernel
end GuestKernel
