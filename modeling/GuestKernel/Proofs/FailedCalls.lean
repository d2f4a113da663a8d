/-
# A failed call leaves no trace

A call that returns an error has noted events and done nothing else (`Traceless`): guest memory, registers, objects with
their queues, threads, the scheduler, partitions, the clock and the next id are what they were.

| calls | why |
| --- | --- |
| most | everything that can fail is checked before the first change |
| pipe transfers | the guest side of a transfer is checked before bytes move |
| creating a thread, pipe or block | what was allocated before the refusal goes back |
| deleting a thread, pipe or block | the blocks to free are known to be owned, so nothing is refused half way |

Two families are not among them. Cancelling all waits on an object changes the object before it reports how many there
were, and event flags clear bits before they report what they saw.

A failed cancel leaves every thread as it was (`strands_of_failedCancel`). If it has come as far as the report, the object
has its new value and an empty queue, and its waiters wait on in no queue (`failedCancel_not_atomic`).

Source: specification, 7.
-/

import GuestKernel.Proofs.Ownership
import GuestKernel.Syscall.Handler

namespace GuestKernel
namespace Kernel

variable {k k' : Kernel} {α β ρ : Type} {id : ObjectId} {w : Wait} {request : ρ} {queue : Waiter ρ → Object}
  {kind : ObjectKind} {exitCode initialCount maxCount amount need count : Int32} {callbacks sending : Bool} {ticks : UInt64}
  {argumentLength argumentAddress priority timeoutAddress entry commonArgument argument attributes address bits : UInt32}
  {name : String} {words : List UInt32} {r : PipeRequest}

/-- The call succeeded, or it changed nothing but the journal. -/
def Traceless (k : Kernel) (r : Reply α) : Prop := r.result.isOk = true ∨ Noted k r.kernel

@[simp] theorem traceless_done (a : α) : k.Traceless (k'.done a) := Or.inl rfl

@[simp] theorem traceless_refuse (e : KernelError) : k.Traceless (k.refuse e : Reply α) := Or.inr (.refl k)

@[simp] theorem traceless_fault (f : Fault) : k.Traceless (k.fault f : Reply α) := Or.inr (.note k _)

@[simp] theorem traceless_answer (result : Except KernelError α) : k.Traceless (k.answer result) := Or.inr (.refl k)

@[simp] theorem traceless_withMemory (m : Except Fault Memory) : k.Traceless (k.withMemory m) := by
  cases m with
  | ok m => exact Or.inl rfl
  | error f => exact traceless_fault f

theorem Traceless.map {r : Reply α} (h : k.Traceless r) (f : α → β) : k.Traceless (r.map f) := by
  refine h.imp_left fun hok => ?_
  unfold Reply.map
  cases hr : r.result with
  | ok a => rfl
  | error e =>
    rw [hr] at hok
    cases hok

theorem Conserves.traceless {r : Reply α} (h : k.Conserves r) : k.Traceless r := by
  obtain ⟨e, k', hk', -, rfl⟩ | ⟨a, k', -, rfl⟩ := h
  · exact Or.inr hk'
  · exact Or.inl rfl

theorem Traceless.error {r : Reply α} {e : KernelError} (h : k.Traceless r) (he : r.result = .error e) :
    Noted k r.kernel := by
  obtain hok | hnoted := h
  · rw [he] at hok
    cases hok
  · exact hnoted

/-! ### Waiting -/

theorem traceless_beginWait {next : ThreadId → Kernel → Kernel} {answer : ThreadId → Kernel → α} (w : Wait) :
    k.Traceless ((k.beginWait w).andThen fun t k => (next t k).done (answer t k)) := by
  obtain ⟨e, h⟩ | ⟨t, -, -, -, h⟩ := beginWait_cases k w <;> rw [h]
  · exact traceless_refuse e
  · exact traceless_done _

theorem traceless_block : k.Traceless (k.block w request queue) := by
  obtain ⟨k', e, -, hk', h⟩ | ⟨t, timeout, -, -, -, h⟩ := block_cases k w request queue <;> rw [h]
  · exact Or.inr hk'
  · exact traceless_done _

/-- An object that is not there cannot be unregistered; what follows cannot fail. -/
theorem traceless_unregister {next : Unit → Kernel → Kernel} :
    k.Traceless ((k.unregister kind id).andThen fun u k => (next u k).done ()) := by
  obtain h | ⟨o, -, -, -, h⟩ := unregister_cases k kind id <;> rw [h]
  · exact traceless_refuse _
  · exact traceless_done _

/-! ### Threads -/

theorem traceless_onThread (call : Kernel → ThreadId → Reply α) (id : ThreadId)
    (h : ∀ id, k.Traceless (call k id)) : k.Traceless (k.onThread id call) := by
  unfold onThread
  split
  · next id' _ => exact h id'
  · simp

theorem traceless_onOther {call : Kernel → ThreadId → Reply α} (id : ThreadId) (h : k.Traceless (call k id)) :
    k.Traceless (k.onOther id call) := by
  unfold onOther
  split
  · simp
  · exact h

theorem traceless_startThread : k.Traceless (k.startThread id argumentLength argumentAddress) := by
  unfold startThread
  split
  · simp
  · split <;> simp

theorem traceless_exitCurrent : k.Traceless (k.exitCurrent exitCode) := by
  unfold exitCurrent
  split
  · simp
  · refine Traceless.map ?_ _
    unfold exitThread
    split <;> simp

theorem traceless_terminateThread : k.Traceless (k.terminateThread id) := by
  unfold terminateThread
  split
  · simp
  · split
    · simp
    · split <;> simp

theorem traceless_changePriority : k.Traceless (k.changePriority id priority) := by
  unfold changePriority
  split
  · simp
  · split
    · simp
    · split <;> simp

theorem traceless_restorePriority : k.Traceless (k.restorePriority id priority) := by
  unfold restorePriority
  split
  · split
    · simp
    · exact traceless_changePriority
  · exact traceless_changePriority

theorem traceless_waitThreadEnd : k.Traceless (k.waitThreadEnd id timeoutAddress callbacks) := by
  unfold waitThreadEnd
  split
  · simp
  · unfold joinThread
    split
    · simp
    · split
      · simp
      · split
        · simp
        · exact traceless_beginWait _

theorem traceless_sleepThread : k.Traceless (k.sleepThread callbacks) := by
  unfold sleepThread
  split
  · simp
  · split
    · simp
    · split
      · simp
      · obtain ⟨e, h⟩ | ⟨t, -, -, -, h⟩ := beginWait_cases k { kind := .sleep, callbacks } <;> rw [h]
        · exact (traceless_refuse e).map _
        · exact (traceless_done t.id).map _

theorem traceless_delayThread : k.Traceless (k.delayThread ticks callbacks) := by
  unfold delayThread
  obtain ⟨e, h⟩ | ⟨t, -, -, -, h⟩ := beginWait_cases k { kind := .delay, timeout := max ticks 1, callbacks } <;> rw [h]
  · exact (traceless_refuse e).map _
  · exact (traceless_done t.id).map _

theorem traceless_wakeupThread (id : ThreadId) : k.Traceless (k.wakeupThread id) := by
  unfold wakeupThread
  split
  · simp
  · split
    · simp
    · split <;> simp

theorem traceless_cancelWakeup (id : ThreadId) : k.Traceless (k.cancelWakeup id) := by
  unfold cancelWakeup
  split <;> simp

theorem traceless_suspendThread : k.Traceless (k.suspendThread id) := by
  unfold suspendThread
  split
  · simp
  · split
    · simp
    · split
      · simp
      · split <;> simp

theorem traceless_resumeThread : k.Traceless (k.resumeThread id) := by
  unfold resumeThread
  split
  · simp
  · split <;> simp

/-! ### Callbacks -/

theorem traceless_createCallback : k.Traceless (k.createCallback name entry commonArgument) := by
  unfold createCallback
  split
  · simp
  · split <;> simp

theorem traceless_deleteCallback : k.Traceless (k.deleteCallback id) := by
  unfold deleteCallback
  split
  · simp
  · next c hc =>
    -- The callback is still registered when its owner has forgotten it, so it can be unregistered.
    have hget := ObjectTable.callback?_eq_some.mp hc
    have hstill : (k.forgetCallback c).objects.get? id = some (.callback c) := by
      unfold forgetCallback
      split
      · next t ht =>
        refine (ObjectTable.get?_put ..).trans ((if_neg ?_).trans hget)
        exact (id_of_thread? ht).symm ▸ ne_of_callback ht hget
      · exact hget
    have hfind : (k.forgetCallback c).objects.find? .callback id = some (.callback c) :=
      ObjectTable.find?_eq_some.mpr ⟨hstill, rfl⟩
    unfold unregister
    rw [hfind]
    exact traceless_done ()

theorem traceless_notifyCallback : k.Traceless (k.notifyCallback id argument) := by
  unfold notifyCallback
  split <;> simp

theorem traceless_checkCallbacks : k.Traceless k.checkCallbacks := by
  unfold checkCallbacks
  split
  · simp
  · split
    · simp
    · split <;> simp

/-! ### Semaphores, event flags, mutexes -/

theorem traceless_createSemaphore : k.Traceless (k.createSemaphore name attributes initialCount maxCount) := by
  unfold createSemaphore
  split <;> simp

theorem traceless_deleteSemaphore : k.Traceless (k.deleteSemaphore id) := by
  unfold deleteSemaphore
  split
  · simp
  · exact traceless_unregister

theorem traceless_signalSemaphore : k.Traceless (k.signalSemaphore id amount) := by
  unfold signalSemaphore
  split
  · simp
  · split
    · simp
    · split <;> simp

theorem traceless_waitSemaphore : k.Traceless (k.waitSemaphore id need timeoutAddress callbacks) := by
  unfold waitSemaphore
  split
  · simp
  · split
    · simp
    · split
      · simp
      · exact traceless_block

theorem traceless_pollSemaphore : k.Traceless (k.pollSemaphore id need) := by
  unfold pollSemaphore
  split
  · simp
  · split
    · simp
    · split <;> simp

theorem traceless_writeStatus : k.Traceless (k.writeStatus address name words) :=
  traceless_withMemory _

theorem traceless_referSemaphore : k.Traceless (k.referSemaphore id address) := by
  unfold referSemaphore
  split
  · simp
  · exact traceless_writeStatus

theorem traceless_deleteEventFlag : k.Traceless (k.deleteEventFlag id) := by
  unfold deleteEventFlag
  split
  · simp
  · exact traceless_unregister

theorem traceless_setEventFlag : k.Traceless (k.setEventFlag id bits) := by
  unfold setEventFlag
  split <;> simp

theorem traceless_clearEventFlag : k.Traceless (k.clearEventFlag id bits) := by
  unfold clearEventFlag
  split <;> simp

theorem traceless_referEventFlag : k.Traceless (k.referEventFlag id address) := by
  unfold referEventFlag
  split
  · simp
  · exact traceless_writeStatus

theorem traceless_createMutex : k.Traceless (k.createMutex name attributes initialCount) := by
  unfold createMutex
  split
  · simp
  · split <;> simp

theorem traceless_deleteMutex : k.Traceless (k.deleteMutex id) := by
  unfold deleteMutex
  split
  · simp
  · exact traceless_unregister

theorem traceless_lockMutex : k.Traceless (k.lockMutex id count timeoutAddress callbacks) := by
  unfold lockMutex
  split
  · simp
  · simp
  · exact traceless_block

theorem traceless_tryLockMutex : k.Traceless (k.tryLockMutex id count) := by
  unfold tryLockMutex
  split <;> simp

theorem traceless_unlockMutex : k.Traceless (k.unlockMutex id count) := by
  unfold unlockMutex
  split
  · simp
  · split
    · simp
    · split
      · simp
      · split <;> simp

theorem traceless_referMutex : k.Traceless (k.referMutex id address) := by
  unfold referMutex
  split
  · simp
  · exact traceless_writeStatus

/-! ### Message pipes -/

theorem traceless_trySendPipe : k.Traceless (k.trySendPipe id r) := by
  obtain ⟨k', e, -, hk', h⟩ | ⟨p, memory, bytes, -, -, -, h⟩ := trySendPipe_cases k id r <;> rw [h]
  · exact Or.inr hk'
  · exact traceless_done ()

theorem traceless_tryReceivePipe : k.Traceless (k.tryReceivePipe id r) := by
  obtain ⟨k', e, -, hk', h⟩ | ⟨p, memory, amount, -, -, h⟩ := tryReceivePipe_cases k id r <;> rw [h]
  · exact Or.inr hk'
  · exact traceless_done ()

theorem traceless_blockOnPipe : k.Traceless (k.blockOnPipe id r timeoutAddress callbacks sending) := by
  unfold blockOnPipe
  split
  · simp
  · exact traceless_block

theorem traceless_sendPipe : k.Traceless (k.sendPipe id r timeoutAddress callbacks) := by
  unfold sendPipe
  split
  · next k' h =>
    obtain ⟨rfl, -⟩ := trySendPipe_full h
    exact traceless_blockOnPipe
  · exact traceless_trySendPipe.map _

theorem traceless_receivePipe : k.Traceless (k.receivePipe id r timeoutAddress callbacks) := by
  unfold receivePipe
  split
  · next k' h =>
    obtain ⟨rfl, -⟩ := tryReceivePipe_empty h
    exact traceless_blockOnPipe
  · exact traceless_tryReceivePipe.map _

theorem traceless_referPipe : k.Traceless (k.referPipe id address) := by
  unfold referPipe
  split
  · simp
  · exact traceless_writeStatus

end Kernel

/-! ### All calls -/

/-- Whether the call may change the kernel before it fails. -/
def Syscall.leavesTraces : Syscall → Bool
  | cancelSemaphore .. | cancelEventFlag .. | cancelMutex .. | cancelPipe .. => true
  | waitEventFlag .. | pollEventFlag .. => true
  | _ => false

namespace Kernel

variable {k : Kernel}

/-- **A call that leaves no traces leaves none when it fails.** -/
theorem traceless_perform {call : Syscall} (h : k.Owned) (hfresh : k.objects.get? k.nextId = none)
    (hcall : call.leavesTraces = false) : k.Traceless (k.perform call) := by
  cases hr : call.reserves with
  | true => exact (conserves_perform h hfresh hr).traceless
  | false =>
    cases call with
    | createThread | deleteThread | exitDeleteThread | terminateDeleteThread => cases hr
    | createPipe | deletePipe | allocateMemory | freeMemory => cases hr
    | cancelSemaphore | cancelEventFlag | cancelMutex | cancelPipe => cases hcall
    | waitEventFlag | pollEventFlag => cases hcall
    | startThread => exact traceless_startThread.map _
    | exitThread => exact traceless_exitCurrent.map _
    | terminateThread id => exact (traceless_onOther id (traceless_terminateThread)).map _
    | changeThreadPriority id priority =>
      exact (traceless_onThread (fun k id => k.restorePriority id priority) id fun id =>
        traceless_restorePriority).map _
    | waitThreadEnd => exact traceless_waitThreadEnd.map _
    | threadId | threadCurrentPriority | blockAddress | maxFreeMemory | totalFreeMemory =>
      exact (traceless_answer _).map _
    | threadExitStatus id =>
      exact (traceless_onThread (fun k id => k.answer (k.exitStatus id)) id fun _ => traceless_answer _).map _
    | sleepThread => exact traceless_sleepThread.map _
    | wakeupThread id => exact (traceless_onThread _ id traceless_wakeupThread).map _
    | cancelWakeupThread id => exact (traceless_onThread _ id traceless_cancelWakeup).map _
    | suspendThread id => exact (traceless_onOther id (traceless_suspendThread)).map _
    | resumeThread id => exact (traceless_onOther id (traceless_resumeThread)).map _
    | delayThread => exact traceless_delayThread.map _
    | createCallback => exact traceless_createCallback.map _
    | deleteCallback => exact traceless_deleteCallback.map _
    | notifyCallback => exact traceless_notifyCallback.map _
    | checkCallback => exact traceless_checkCallbacks.map _
    | createSemaphore => exact traceless_createSemaphore.map _
    | deleteSemaphore => exact traceless_deleteSemaphore.map _
    | signalSemaphore => exact traceless_signalSemaphore.map _
    | waitSemaphore => exact traceless_waitSemaphore.map _
    | pollSemaphore => exact traceless_pollSemaphore.map _
    | referSemaphore => exact traceless_referSemaphore.map _
    | createEventFlag => exact Or.inl rfl
    | deleteEventFlag => exact traceless_deleteEventFlag.map _
    | setEventFlag => exact traceless_setEventFlag.map _
    | clearEventFlag => exact traceless_clearEventFlag.map _
    | referEventFlag => exact traceless_referEventFlag.map _
    | createMutex => exact traceless_createMutex.map _
    | deleteMutex => exact traceless_deleteMutex.map _
    | lockMutex => exact traceless_lockMutex.map _
    | tryLockMutex => exact traceless_tryLockMutex.map _
    | unlockMutex => exact traceless_unlockMutex.map _
    | referMutex => exact traceless_referMutex.map _
    | sendPipe => exact traceless_sendPipe.map _
    | trySendPipe => exact traceless_trySendPipe.map _
    | receivePipe => exact traceless_receivePipe.map _
    | tryReceivePipe => exact traceless_tryReceivePipe.map _
    | referPipe => exact traceless_referPipe.map _
    | systemTime | systemTimeLow => exact Or.inl rfl
    | writeSystemTime => exact (traceless_withMemory _).map _

end Kernel

/-! ### The table -/

namespace CallEntry

/-- The functions whose failures may leave traces. -/
def leavingTraces : List String :=
  ["sceKernelCancelSema", "sceKernelCancelEventFlag", "sceKernelCancelMutex", "sceKernelCancelMsgPipe",
    "sceKernelWaitEventFlag", "sceKernelWaitEventFlagCB", "sceKernelPollEventFlag"]

/-- The calls that arguments can stand for all have a property. -/
def Only (P : Syscall → Prop) (e : CallEntry) : Prop :=
  ∀ decode, e.decode = some decode → ∀ arguments memory call, decode arguments memory = .ok call → P call

variable {P : Syscall → Prop} {nid : UInt32} {name : String}

theorem only_plain {call : Arguments → Syscall} (h : ∀ a, P (call a)) : (plain nid name call).Only P := by
  rintro decode ⟨⟩ arguments memory call ⟨⟩
  exact h arguments

theorem only_named {index : Fin 8} {call : Arguments → String → Syscall} (h : ∀ a text, P (call a text)) :
    (named nid name index call).Only P := by
  rintro decode ⟨⟩ arguments memory call' hcall
  dsimp only at hcall
  cases htext : memory.readCString arguments[index] with
  | error f =>
    rw [htext] at hcall
    cases hcall
  | ok text =>
    rw [htext] at hcall
    cases hcall
    exact h arguments text

theorem only_known : (known nid name).Only P := nofun

/-- Each row of the table is one of the exceptions, or takes words, or a name besides, or is not provided. -/
theorem isTraceless_of_mem : ∀ e ∈ callTable, e.name ∈ leavingTraces ∨ e.Only (·.leavesTraces = false) := by
  unfold callTable
  repeat' refine List.forall_mem_cons.mpr ⟨?_, ?_⟩
  all_goals first
    | exact Or.inr (only_plain fun _ => rfl)
    | exact Or.inr (only_named fun _ _ => rfl)
    | exact Or.inr only_known
    | exact Or.inl (by decide)
    | exact nofun

end CallEntry

namespace Kernel

variable {k : Kernel}

/-- A call by number is the call its arguments stand for, if they can be read. -/
theorem traceless_runEntry {decode : Arguments → Memory → Except Fault Syscall} {arguments : Arguments} (h : k.Owned)
    (hfresh : k.objects.get? k.nextId = none)
    (hcall : ∀ call, decode arguments k.memory = .ok call → call.leavesTraces = false) :
    k.Traceless (k.runEntry decode arguments) := by
  unfold runEntry
  split
  · simp
  · next call hdecode => exact (traceless_perform h hfresh (hcall call hdecode)).map _

/-- **A failed call leaves no trace.** In every kernel that operations lead to, a function of the table that is
provided, other than those that cancel waits and those that wait for or poll events, either succeeds, or returns an error
and changes nothing but the journal: objects with their queues, threads, the scheduler, partitions, the clock, the next
id, the contexts of the processor and guest memory are what they were. -/
theorem noted_of_failedCall (config : KernelConfig) (memory : Memory) (operations : List Operation)
    (hconfig : ∀ c ∈ config.partitions, c.base.toNat + c.size.toNat < 2 ^ 32)
    (hids : (Kernel.new config memory).handedOut operations < 2 ^ 32 - 1) (nid : UInt32) (entry : CallEntry)
    (hentry : callOf? nid = some entry) (decode : Arguments → Memory → Except Fault Syscall)
    (hdecode : entry.decode = some decode) (hname : entry.name ∉ CallEntry.leavingTraces) (arguments : Arguments)
    (e : KernelError) (he : (((Kernel.new config memory).run operations).runEntry decode arguments).result = .error e) :
    Noted ((Kernel.new config memory).run operations)
      (((Kernel.new config memory).run operations).runEntry decode arguments).kernel := by
  obtain ⟨⟨-, hbelow⟩, howned⟩ := reachable_owned hconfig hids
  have hmem : entry ∈ callTable := List.mem_of_find?_eq_some hentry
  have hentry := (CallEntry.isTraceless_of_mem entry hmem).resolve_left hname
  exact (traceless_runEntry howned hbelow.fresh fun call hcall => hentry decode hdecode _ _ call hcall).error he

/-- All but two pages of the partition of stacks are taken. -/
def crowdedPartition : List Operation :=
  [.syscall (.createThread "main" 0x08900000 32 0x1000 0), .syscall (.startThread 1 0 0), .dispatch,
    .syscall (.allocateMemory 2 "most" 0 0x17F9000 0)]

/-- The arguments of a thread whose stack fits and whose thread-local block does not. -/
def secondThread : Arguments := #v[0x08900000, 0x08900000, 32, 0x1000, 0, 0, 0, 0]

/-- The stack that was allocated before the refusal goes back, and only the journal tells of it. -/
theorem noted_of_failedCall_secondThread : ∃ entry decode,
    (∀ c ∈ ({} : KernelConfig).partitions, c.base.toNat + c.size.toNat < 2 ^ 32) ∧
      (Kernel.new {} {}).handedOut crowdedPartition < 2 ^ 32 - 1 ∧ callOf? 0x446D8DE6 = some entry ∧
      entry.decode = some decode ∧ entry.name ∉ CallEntry.leavingTraces ∧
      (((Kernel.new {} {}).run crowdedPartition).runEntry decode secondThread).result = .error .outOfMemory ∧
      ((((Kernel.new {} {}).run crowdedPartition).runEntry decode secondThread).kernel.journal.length =
        ((Kernel.new {} {}).run crowdedPartition).journal.length + 3) ∧
      Noted ((Kernel.new {} {}).run crowdedPartition)
        (((Kernel.new {} {}).run crowdedPartition).runEntry decode secondThread).kernel := by
  have hconfig : ∀ c ∈ ({} : KernelConfig).partitions, c.base.toNat + c.size.toNat < 2 ^ 32 := by decide
  have hids : (Kernel.new {} {}).handedOut crowdedPartition < 2 ^ 32 - 1 := handedOut_lt (by decide)
  let entry : CallEntry := .named 0x446D8DE6 "sceKernelCreateThread" 0 fun a name =>
    .createThread name a[1] a[2] a[3] a[4]
  have hentry : callOf? 0x446D8DE6 = some entry := rfl
  have hname : entry.name ∉ CallEntry.leavingTraces := by decide
  have hfull : (((Kernel.new {} {}).run crowdedPartition).runEntry (fun a m =>
      (m.readCString a[(0 : Fin 8)]).map fun name => .createThread name a[1] a[2] a[3] a[4]) secondThread).result =
      .error .outOfMemory := by
    decide +kernel
  exact ⟨entry, _, hconfig, hids, hentry, rfl, hname, hfull, by decide +kernel,
    noted_of_failedCall {} {} crowdedPartition hconfig hids 0x446D8DE6 entry hentry _ rfl hname secondThread _ hfull⟩

end Kernel

/-! ### Failed cancels -/

/-- What a call that cancels all waits makes of the object: it has the value that the call asks for, and no waiters. -/
inductive Syscall.Resets (k : Kernel) : Syscall → Object → Object → Prop where
  | semaphore {s : Semaphore} {count : Int32} {address : UInt32} :
      Resets k (.cancelSemaphore s.id count address) (.semaphore s) (.semaphore (s.reset count))
  | eventFlag {f : EventFlag} {pattern address : UInt32} :
      Resets k (.cancelEventFlag f.id pattern address) (.eventFlag f) (.eventFlag (f.reset pattern))
  | mutex {m : Mutex} {count : Int32} {address : UInt32} {owner : Option ThreadId} (h : k.ownerFor count = .ok owner) :
      Resets k (.cancelMutex m.id count address) (.mutex m) (.mutex (m.reset owner count))
  | messagePipe {p : MessagePipe} {sendersAddress receiversAddress : UInt32} :
      Resets k (.cancelPipe p.id sendersAddress receiversAddress) (.messagePipe p) (.messagePipe p.reset)

namespace Syscall.Resets

variable {k : Kernel} {call : Syscall} {o o' : Object}

theorem id_eq (h : call.Resets k o o') : o'.id = o.id := by cases h <;> rfl

theorem kind_eq (h : call.Resets k o o') : o'.kind = o.kind := by cases h <;> rfl

theorem kind_ne (h : call.Resets k o o') : o.kind ≠ .thread := by cases h <;> exact nofun

theorem waiting_eq (h : call.Resets k o o') : o'.waiting = [] := by cases h <;> rfl

end Syscall.Resets

namespace Kernel

variable {k : Kernel} {α β : Type} {call : Syscall}

/-- If the call fails, it changed nothing, or it could not write how many waiters there were: then the object is reset,
and nobody has been woken. -/
def Strands (k : Kernel) (call : Syscall) (r : Reply α) : Prop :=
  ∀ e, r.result = .error e → r.kernel = k ∨ ∃ o o' f memory, k.objects.get? o.id = some o ∧ call.Resets k o o' ∧
    e = .memory f.error ∧ r.kernel = { (k.put o').note (.faulted f) with memory }

theorem strands_refuse (e : KernelError) : k.Strands call (k.refuse e : Reply α) := fun _ _ => Or.inl rfl

theorem Strands.map {r : Reply α} (h : k.Strands call r) (f : α → β) : k.Strands call (r.map f) := by
  intro e he
  refine h e ?_
  unfold Reply.map at he
  cases hr : r.result with
  | ok a =>
    rw [hr] at he
    cases he
  | error e' =>
    rw [hr] at he
    cases he
    rfl

/-- The object has been reset when the write is tried, and the waiters are woken after it. -/
theorem strands_drain {o o' : Object} (ho : k.objects.get? o.id = some o) (h : call.Resets k o o') (memory : Memory)
    (m : Except Fault Memory) (waiting : List ThreadId) (result : Int32) :
    k.Strands call ((({ k.put o' with memory } : Kernel).withMemory m).andThen fun _ k =>
      ((k.wakeAll waiting result).done () : Reply Unit)) := by
  intro e he
  cases m with
  | ok m => cases he
  | error f =>
    cases he
    exact Or.inr ⟨o, o', f, memory, ho, h, rfl, rfl⟩

theorem strands_cancelSemaphore (id : ObjectId) (count : Int32) (waitingAddress : UInt32) :
    k.Strands (.cancelSemaphore id count waitingAddress) (k.cancelSemaphore id count waitingAddress) := by
  unfold cancelSemaphore
  split
  · exact strands_refuse _
  · next s hs =>
    obtain ⟨rfl, hget⟩ := ObjectTable.keyed_semaphore? hs
    split
    · exact strands_refuse _
    · exact strands_drain (o := .semaphore s) hget .semaphore k.memory _ _ _

theorem strands_cancelEventFlag (id : ObjectId) (pattern waitingAddress : UInt32) :
    k.Strands (.cancelEventFlag id pattern waitingAddress) (k.cancelEventFlag id pattern waitingAddress) := by
  unfold cancelEventFlag
  split
  · exact strands_refuse _
  · next f hf =>
    obtain ⟨rfl, hget⟩ := ObjectTable.keyed_eventFlag? hf
    exact strands_drain (o := .eventFlag f) hget .eventFlag k.memory _ _ _

theorem strands_cancelMutex (id : ObjectId) (count : Int32) (waitingAddress : UInt32) :
    k.Strands (.cancelMutex id count waitingAddress) (k.cancelMutex id count waitingAddress) := by
  unfold cancelMutex
  split
  · exact strands_refuse _
  · next m hm =>
    obtain ⟨rfl, hget⟩ := ObjectTable.keyed_mutex? hm
    split
    · exact strands_refuse _
    · split
      · exact strands_refuse _
      · next owner howner => exact strands_drain (o := .mutex m) hget (.mutex howner) k.memory _ _ _

theorem strands_cancelPipe (id : ObjectId) (sendersAddress receiversAddress : UInt32) :
    k.Strands (.cancelPipe id sendersAddress receiversAddress)
      (k.cancelPipe id sendersAddress receiversAddress) := by
  unfold cancelPipe
  split
  · exact strands_refuse _
  · next p hp =>
    obtain ⟨rfl, hget⟩ := ObjectTable.keyed_messagePipe? hp
    dsimp only
    -- The first number may have been written when the second cannot be.
    cases (k.put (.messagePipe p.reset)).memory.writeOptional sendersAddress (UInt32.ofNat p.senders.length) with
    | error f =>
      intro e he
      cases he
      exact Or.inr ⟨.messagePipe p, .messagePipe p.reset, f, k.memory, hget, .messagePipe, rfl, rfl⟩
    | ok memory => exact strands_drain (o := .messagePipe p) hget .messagePipe memory _ _ _

/-- A cancellation that fails strands its waiters at worst. -/
theorem strands_perform (hcall : call.isCancel = true) : k.Strands call (k.perform call) := by
  cases call with
  | cancelSemaphore => exact Strands.map (strands_cancelSemaphore _ _ _) _
  | cancelEventFlag => exact Strands.map (strands_cancelEventFlag _ _ _) _
  | cancelMutex => exact Strands.map (strands_cancelMutex _ _ _) _
  | cancelPipe => exact Strands.map (strands_cancelPipe _ _ _) _
  | _ => cases hcall

/-- **A failed cancel wakes nobody.** A call that cancels all waits on an object and fails leaves every thread and the
scheduler as they are. It leaves the object alone too, unless it was refused the write of how many waiters there were:
then the object has its new value and no waiters, and those it had go on waiting in no queue. -/
theorem strands_of_failedCancel (k : Kernel) (call : Syscall) (hcall : call.isCancel = true) (e : KernelError)
    (he : (k.perform call).result = .error e) :
    (∀ id, (k.perform call).kernel.thread? id = k.thread? id) ∧ (k.perform call).kernel.ready = k.ready ∧
      (k.perform call).kernel.current = k.current ∧
      ((k.perform call).kernel = k ∨
        ∃ (o o' : Object) (f : Fault), k.objects.get? o.id = some o ∧ call.Resets k o o' ∧ o'.waiting = [] ∧
          e = .memory f.error ∧
          (k.perform call).kernel.objects = k.objects.put o') := by
  obtain heq | ⟨o, o', f, memory, ho, hr, hf, heq⟩ := strands_perform hcall e he
  · rw [heq]
    exact ⟨fun _ => rfl, rfl, rfl, Or.inl rfl⟩
  · rw [heq]
    exact ⟨thread?_put_of_kind_ne o' ho hr.kind_ne hr.id_eq hr.kind_eq, rfl, rfl,
      Or.inr ⟨o, o', f, ho, hr, hr.waiting_eq, hf, rfl⟩⟩

/-- A thread waits for a unit of a semaphore. -/
def strandedWait : List Operation :=
  [.syscall (.createThread "waiter" 0x08900000 32 0x1000 0), .syscall (.startThread 1 0 0), .dispatch,
    .syscall (.createSemaphore "units" 0 0 1), .syscall (.waitSemaphore 2 1 0 false)]

/-- **A failed cancel is not atomic**: the semaphore loses its waiter, which still waits on it. -/
theorem failedCancel_not_atomic :
    (((Kernel.new {} {}).run strandedWait).perform (.cancelSemaphore 2 0 1)).result =
        .error (.memory (.invalidAddress 1)) ∧
      (((Kernel.new {} {}).run strandedWait).objects.semaphore? 2).map (·.waiters.threads) = some [1] ∧
      ((((Kernel.new {} {}).run strandedWait).perform (.cancelSemaphore 2 0 1)).kernel.objects.semaphore? 2).map
        (·.waiters.threads) = some [] ∧
      ((((Kernel.new {} {}).run strandedWait).perform (.cancelSemaphore 2 0 1)).kernel.thread? 1).map
        (fun t => (t.status.waiting, t.wait.map (·.handle))) = some (true, some 2) := by
  decide +kernel

/-- The semaphore is reset by a call that fails, and the thread is left alone. -/
theorem strands_of_failedCancel_strandedWait :
    (((Kernel.new {} {}).run strandedWait).perform (.cancelSemaphore 2 0 1)).result =
        .error (.memory (.invalidAddress 1)) ∧
      ((((Kernel.new {} {}).run strandedWait).perform (.cancelSemaphore 2 0 1)).kernel.thread? 1 =
        ((Kernel.new {} {}).run strandedWait).thread? 1) := by
  have hfails : (((Kernel.new {} {}).run strandedWait).perform (.cancelSemaphore 2 0 1)).result =
      .error (.memory (.invalidAddress 1)) := by
    decide +kernel
  exact ⟨hfails, (strands_of_failedCancel _ (.cancelSemaphore 2 0 1) rfl _ hfails).1 1⟩

end Kernel
end GuestKernel
