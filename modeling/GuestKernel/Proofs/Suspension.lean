/-
# Suspension commutes with a wait

To put a thread that waits on hold and to let it go on later is as if nothing had happened, whatever comes in between
and whether or not it ends the wait. The results of what comes in between are the same, and so is the kernel but for the
order of ready threads of one priority and the journal (`suspension_run`).

Each call answers alike whether or not the thread is on hold (`Holds`). What cannot come in between is the hold, the
release or the end of that very thread, and what gives the processor to another one: a dispatch, and the return from a
callback.

Source: specification, 4.2 and 8.
-/

import GuestKernel.Proofs.HeldCalls

namespace GuestKernel

/-- What an operation tells whoever asks for it. -/
inductive Response where
  | answer (result : Except KernelError Answer)
  | expired (count : Nat)
  | picked (dispatch : Option Dispatch)
  | nothing

namespace Kernel

/-- What an operation tells in a kernel. -/
def respond (k : Kernel) : Operation → Response
  | .syscall call => .answer (k.perform call).result
  | .exitThread id exitCode => .answer ((k.exitThread id exitCode).map fun _ => .done).result
  | .deleteThread id => .answer ((k.deleteThread id).map fun _ => .done).result
  | .changePriority id priority => .answer ((k.changePriority id priority).map fun _ => .done).result
  | .suspendThread id => .answer ((k.suspendThread id).map fun _ => .done).result
  | .resumeThread id => .answer ((k.resumeThread id).map fun _ => .done).result
  | .wakeupThread id => .answer ((k.wakeupThread id).map fun _ => .done).result
  | .cancelWakeup id => .answer ((k.cancelWakeup id).map .word).result
  | .delayThread ticks callbacks => .answer ((k.delayThread ticks callbacks).map .outcome).result
  | .joinThread id timeout timeoutAddress callbacks =>
    .answer ((k.joinThread id timeout timeoutAddress callbacks).map .outcome).result
  | .terminateThread id => .answer ((k.terminateThread id).map fun _ => .done).result
  | .finishCallback value => .answer ((k.finishCallback value).map fun _ => .done).result
  | .advanceClock ticks => .expired (k.advanceClock ticks).1
  | .expireTimeouts => .expired k.expireTimeouts.1
  | .dispatch => .picked k.dispatch.1
  | .guestWrite address bytes => .answer ((k.withMemory (k.memory.writeBytes address bytes)).map fun _ => .done).result
  | .guestRegister .. => .nothing

end Kernel

/-- An operation that may come between the hold on a thread and its release: no dispatch, no return from a callback, and
not about the hold or the end of that thread. -/
structure Operation.Between (o : Operation) (k : Kernel) (id : ThreadId) : Prop where
  dispatch : o ≠ .dispatch
  finishes : o.finishes = false
  ends : o.ends? k ≠ some id
  suspends : o.suspends? ≠ some id
  resumes : o.resumes? ≠ some id

namespace Kernel

variable {id : ThreadId} {k k' : Kernel} {x : ObjectId} {α β : Type} {t : Thread}

namespace Holds

/-! ### Callbacks -/

variable (h : Holds id k k') {name : String}
  {entry commonArgument argument priority wantedStack attributes argumentLength argumentAddress timeoutAddress : UInt32}
  {callbacks : Bool} {ticks timeout : UInt64}

include h

theorem createCallback (hfresh : k.nextId ≠ id) :
    Agrees id (k.createCallback name entry commonArgument) (k'.createCallback name entry commonArgument) := by
  unfold Kernel.createCallback
  rw [h.current]
  cases hc : k.current with
  | none => exact .refuse h _
  | some owner =>
    have hne := h.ne_of_current hc
    dsimp only
    rw [h.thread?_of_ne hne]
    cases ht : k.thread? owner with
    | none => exact .refuse h _
    | some t =>
      dsimp only
      rw [show k'.nextId = k.nextId from h.nextId]
      have hput := h.putOther (t := { t with callbacks := t.callbacks ++ [k.nextId] }) (id_of_thread? ht ▸ hne)
      exact .done (hput.registerNew (.callback { id := k.nextId, name, owner, entry, commonArgument }) hfresh) _

/-- The owner of a callback may be on hold. -/
theorem forgetCallback (c : Callback) : Holds id (k.forgetCallback c) (k'.forgetCallback c) := by
  unfold Kernel.forgetCallback
  rw [h.thread?]
  cases ht : k.thread? c.owner with
  | none => exact h
  | some t =>
    exact h.edit (h.status ht) (f := fun t => { t with callbacks := t.callbacks.filter (· != c.id) })
      ⟨fun _ => rfl, fun _ _ => rfl⟩

theorem deleteCallback : Agrees id (k.deleteCallback x) (k'.deleteCallback x) := by
  unfold Kernel.deleteCallback
  rw [h.callback?]
  cases k.objects.callback? x with
  | none => exact .refuse h _
  | some c => exact (h.forgetCallback c).unregister .callback x (by rintro ⟨⟩)

theorem removeCallback (x : ObjectId) : Holds id (k.removeCallback x) (k'.removeCallback x) := by
  obtain ⟨result, k₁, k₁', hgone, hgone', hk⟩ := (h.unregister .callback x (by rintro ⟨⟩)).parts
  unfold Kernel.removeCallback
  rw [hgone, hgone']
  cases result with
  | ok _ => exact hk
  | error e => exact hk.note _ _

theorem removeCallbacks (callbacks : List ObjectId) :
    Holds id (callbacks.foldl Kernel.removeCallback k) (callbacks.foldl Kernel.removeCallback k') := by
  induction callbacks generalizing k k' with
  | nil => exact h
  | cons c rest ih => exact ih (h.removeCallback c)

theorem notifyCallback : Agrees id (k.notifyCallback x argument) (k'.notifyCallback x argument) := by
  unfold Kernel.notifyCallback
  rw [h.callback?]
  cases hc : k.objects.callback? x with
  | none => exact .refuse h _
  | some c =>
    exact .done ((h.change (ObjectTable.callback?_eq_some.mp hc) rfl (.callback (c.notify argument)) rfl).note _ _) ()

theorem pendingCallback? (t : Thread) : k'.pendingCallback? t = k.pendingCallback? t := by
  unfold Kernel.pendingCallback?
  simp only [h.callback?]

theorem checkCallbacks : Agrees id k.checkCallbacks k'.checkCallbacks := by
  unfold Kernel.checkCallbacks
  refine h.onCurrent fun x t ht hne => ?_
  rw [h.pendingCallback?]
  split
  · exact .done (h.putOther (t := { t with checksCallbacks := true }) (id_of_thread? ht ▸ hne)) _
  · exact .done h _

/-! ### The life of a thread -/

theorem stackSize (wanted : UInt32) : k'.stackSize wanted = k.stackSize wanted := by
  unfold Kernel.stackSize
  rw [h.config]

theorem inheritedPointer : k'.inheritedPointer = k.inheritedPointer := by
  have hrunning : k.current.bind k'.thread? = k.current.bind k.thread? := by
    cases hc : k.current with
    | none => rfl
    | some x => exact h.thread?_of_ne (h.ne_of_current hc)
  unfold Kernel.inheritedPointer
  rw [h.current, h.config, hrunning]

theorem allocateStack (name : String) (size : UInt32) :
    Agrees id (k.allocateStack name size) (k'.allocateStack name size) := by
  unfold Kernel.allocateStack
  dsimp only
  rw [h.config]
  obtain ⟨result, k₁, k₁', hstack, hstack', hk₁⟩ :=
    (h.allocateBlock k.config.threadPartition ("stack:" ++ name) .high stackAlignment size).parts
  rw [hstack, hstack']
  refine Agrees.andThen ⟨rfl, hk₁⟩ fun stack _ => ?_
  dsimp only
  rw [hk₁.config]
  split
  · exact .done hk₁ _
  · obtain ⟨result, k₂, k₂', htls, htls', hk₂⟩ := (hk₁.allocateBlock k.config.threadPartition ("tls:" ++ name) .high
      stackAlignment k₁.config.tlsSize).parts
    rw [htls, htls']
    cases result with
    | ok tls => exact .done hk₂ _
    | error e =>
      have hfreed := hk₂.freeBlock k.config.threadPartition stack
      exact hfreed.andThen fun _ _ => .refuse hfreed.kernel e

theorem fillStack (name : String) (stack : Block) : Holds id (k.fillStack name stack) (k'.fillStack name stack) := by
  unfold Kernel.fillStack
  rw [h.memory]
  split
  · exact h.setMemory _
  · exact (h.note _ _).note _ _

/-- A new thread is another one than the one on hold. -/
theorem createThread (hfresh : k.nextId ≠ id) : Agrees id (k.createThread name entry priority wantedStack attributes)
      (k'.createThread name entry priority wantedStack attributes) := by
  unfold Kernel.createThread
  rw [h.stackSize, h.inheritedPointer]
  cases checkPriority priority with
  | error e => exact .refuse h e
  | ok _ =>
    cases k.stackSize wantedStack with
    | error e => exact .refuse h e
    | ok size =>
      have hstack := h.allocateStack name size
      have hnext := (sameObjects_allocateStack k name size).nextId
      refine hstack.andThen fun ⟨stack, localStorage⟩ _ => ?_
      have hfilled : Holds id
          (if Thread.keepsStack attributes then (k.allocateStack name size).kernel
            else (k.allocateStack name size).kernel.fillStack name stack)
          (if Thread.keepsStack attributes then (k'.allocateStack name size).kernel
            else (k'.allocateStack name size).kernel.fillStack name stack) := by
        split
        · exact hstack.kernel
        · exact hstack.kernel.fillStack name stack
      refine hfilled.registerNoted ?_ (.threadCreated name · entry priority stack)
        (fun x => .thread
          { id := x, name, entry, attributes, initialPriority := priority, priority,
            globalPointer := k.inheritedPointer, stack := some stack, localStorage }) fun _ => rfl
      split
      · rwa [hnext]
      · rwa [(Quiet.fillStack ..).nextId, hnext]

/-- A thread other than the one on hold is launched. -/
theorem launch {t : Thread} (hne : t.id ≠ id) (context : ContextId) :
    Holds id (k.launch t context) (k'.launch t context) := by
  unfold Kernel.launch
  have hput := h.putOther (t := { t with context := some context, status := .onlyReady }) hne
  have hstarted : ∀ {k k'}, Holds id k k' →
      Holds id (if k.started.contains t.id then k else { k with started := k.started ++ [t.id] })
        (if k'.started.contains t.id then k' else { k' with started := k'.started ++ [t.id] }) := by
    intro k k' h
    rw [h.started]
    split
    · exact h
    · exact { h with started := rfl }
  exact ((hstarted hput).schedule _ _).schedule' _ _

/-- A thread that waits or is ready cannot be started, on hold or not. -/
theorem startThread :
    Agrees id (k.startThread x argumentLength argumentAddress) (k'.startThread x argumentLength argumentAddress) := by
  unfold Kernel.startThread
  rw [h.thread?]
  cases ht : k.thread? x with
  | none => exact .refuse h _
  | some t =>
    dsimp only [Option.map_some]
    by_cases hid : t.id = id
    · have hstopped : ∀ status : ThreadStatus, status = .onlyWaiting ∨ status = .onlyReady →
          status ≠ .onlyStopped ∧ { status with ready := false, suspended := true } ≠ ThreadStatus.onlyStopped := by
        rintro _ (rfl | rfl) <;> decide
      obtain ⟨hwaits, hheld⟩ := hstopped t.status (h.status ht hid)
      rw [if_pos hwaits, ← hid, Thread.heldAs_self, if_pos (show t.onHold.status ≠ .onlyStopped from hheld)]
      exact .refuse (hid ▸ h) _
    · rw [Thread.heldAs_of_ne hid, h.contexts]
      split
      · exact .refuse h _
      · exact .done (((h.allocateContext _ _).launch hid _).note _ _) ()

theorem exitThread (hne : x ≠ id) (exitCode : Int32) :
    Agrees id (k.exitThread x exitCode) (k'.exitThread x exitCode) := by
  unfold Kernel.exitThread
  rw [h.thread?_of_ne hne]
  cases ht : k.thread? x with
  | none => exact .refuse h _
  | some t => exact .done (h.exit (id_of_thread? ht ▸ hne) exitCode) ()

theorem exitCurrent (exitCode : Int32) : Agrees id (k.exitCurrent exitCode) (k'.exitCurrent exitCode) := by
  unfold Kernel.exitCurrent
  rw [h.current]
  cases hc : k.current with
  | none => exact .refuse h _
  | some x => exact (h.exitThread (h.ne_of_current hc) exitCode).map _

theorem terminateThread (hne : x ≠ id) : Agrees id (k.terminateThread x) (k'.terminateThread x) := by
  unfold Kernel.terminateThread
  rw [h.current, h.thread?_of_ne hne]
  split
  · exact .refuse h _
  cases ht : k.thread? x with
  | none => exact .refuse h _
  | some t =>
    dsimp only
    split
    · exact .refuse h _
    · exact .done (h.exit (id_of_thread? ht ▸ hne) _) ()

theorem clearStack (t : Thread) : Holds id (k.clearStack t) (k'.clearStack t) := by
  unfold Kernel.clearStack
  rw [h.memory]
  split
  · exact h
  · split
    · split
      · exact h.setMemory _
      · exact (h.note _ _).note _ _
    · exact h

/-- The last steps of a deletion: the callbacks go, then the thread. -/
theorem discard {t : Thread} (hne : t.id ≠ id) : Agrees id
      (((t.callbacks.foldl Kernel.removeCallback k).unregister .thread t.id).andThen fun _ k =>
        (({ k with started := k.started.filter (· != t.id) }).note (.threadDeleted t.name t.id)).done ())
      (((t.callbacks.foldl Kernel.removeCallback k').unregister .thread t.id).andThen fun _ k =>
        (({ k with started := k.started.filter (· != t.id) }).note (.threadDeleted t.name t.id)).done ()) := by
  have hgone := (h.removeCallbacks t.callbacks).unregister .thread t.id fun _ => hne
  refine hgone.andThen fun _ _ => .done (.note ?_ _ _) ()
  have hkernel := hgone.kernel
  exact { hkernel with started := congrArg (List.filter _) hkernel.started }

theorem reclaim {t : Thread} (hne : t.id ≠ id) : Agrees id (k.reclaim t) (k'.reclaim t) := by
  unfold Kernel.reclaim
  have hcleared := (h.putOther (t := t.strip) hne).clearStack t
  dsimp only
  rw [hcleared.config, hcleared.partitions]
  split
  · exact .refuse hcleared _
  have hfreed := hcleared.freeBlocks ((k.putThread t.strip).clearStack t).config.threadPartition
    (t.stack.toList ++ t.localStorage.toList)
  refine hfreed.andThen fun _ _ => ?_
  cases t.context with
  | none => exact hfreed.kernel.discard hne
  | some context => exact (hfreed.kernel.releaseContext context).discard hne

theorem deleteThread (hne : x ≠ id) : Agrees id (k.deleteThread x) (k'.deleteThread x) := by
  unfold Kernel.deleteThread
  rw [h.thread?_of_ne hne]
  cases ht : k.thread? x with
  | none => exact .refuse h _
  | some t =>
    have hexit := h.exit (t := t) (id_of_thread? ht ▸ hne) 0
    dsimp only
    rw [hexit.thread?_of_ne hne]
    cases ht' : (k.exit t 0).thread? x with
    | none => exact .refuse hexit _
    | some t' => exact hexit.reclaim (id_of_thread? ht' ▸ hne)

theorem deleteDormant (hne : x ≠ id) : Agrees id (k.deleteDormant x) (k'.deleteDormant x) := by
  unfold Kernel.deleteDormant
  rw [h.current, h.thread?_of_ne hne]
  split
  · exact .refuse h _
  cases k.thread? x with
  | none => exact .refuse h _
  | some t =>
    dsimp only
    split
    · exact h.deleteThread hne
    · exact .refuse h _

/-! ### Priorities, holds and wakeups -/

theorem requeue (p : Prop) [Decidable p] (x : ThreadId) (priority : UInt32) :
    Holds id (if p then ({ k with ready := k.ready.remove x }).schedule x priority else k) k' := by
  split
  · exact (h.setReady (k.ready.remove x) k'.ready).schedule x priority
  · exact h

theorem requeue' (p : Prop) [Decidable p] (x : ThreadId) (priority : UInt32) :
    Holds id k (if p then ({ k' with ready := k'.ready.remove x }).schedule x priority else k') := by
  split
  · exact (h.setReady k.ready (k'.ready.remove x)).schedule' x priority
  · exact h

/-- Only a ready thread is queued anew, so one on hold is not. -/
theorem reprioritise {t : Thread} (ht : k.thread? x = some t) (priority : UInt32) :
    Holds id (k.reprioritise t priority) (k'.reprioritise (t.heldAs id) priority) := by
  have hput := h.edit (h.status ht) (f := fun t => { t with priority }) ⟨fun _ => rfl, fun _ _ => rfl⟩
  exact (hput.requeue _ _ _).requeue' _ _ _

/-- The priority of the thread on hold changes alike. -/
theorem changePriority (x : ThreadId) (priority : UInt32) :
    Agrees id (k.changePriority x priority) (k'.changePriority x priority) := by
  unfold Kernel.changePriority
  rw [h.thread?]
  cases checkPriority priority with
  | error e => exact .refuse h e
  | ok _ =>
    cases ht : k.thread? x with
    | none => exact .refuse h _
    | some t =>
      dsimp only [Option.map_some]
      rw [Thread.dead_heldAs]
      split
      · exact .refuse h _
      · exact .done (h.reprioritise ht priority) ()

theorem restorePriority (x : ThreadId) (priority : UInt32) :
    Agrees id (k.restorePriority x priority) (k'.restorePriority x priority) := by
  unfold Kernel.restorePriority
  split
  · rw [h.thread?]
    cases ht : k.thread? x with
    | none => exact .refuse h _
    | some t =>
      show Agrees id (k.changePriority x t.initialPriority) (k'.changePriority x (t.heldAs id).initialPriority)
      rw [Thread.heldAs_eq]
      exact h.changePriority x t.initialPriority
  · exact h.changePriority x priority

/-- Another thread is held. -/
theorem suspendThread (hne : x ≠ id) : Agrees id (k.suspendThread x) (k'.suspendThread x) := by
  unfold Kernel.suspendThread
  rw [h.current, h.thread?_of_ne hne]
  split
  · exact .refuse h _
  cases ht : k.thread? x with
  | none => exact .refuse h _
  | some t =>
    dsimp only
    split
    · exact .refuse h _
    · split
      · exact .refuse h _
      · have hput := h.putOther (t := { t with status := t.status.suspend }) (id_of_thread? ht ▸ hne)
        exact .done ((hput.setReady _ _).note _ _) ()

/-- Another thread is released. -/
theorem resumeThread (hne : x ≠ id) : Agrees id (k.resumeThread x) (k'.resumeThread x) := by
  unfold Kernel.resumeThread
  rw [h.thread?_of_ne hne]
  cases ht : k.thread? x with
  | none => exact .refuse h _
  | some t =>
    have hput : ∀ status, Holds id (k.putThread { t with status }) (k'.putThread { t with status }) :=
      fun status => h.putOther (t := { t with status }) (id_of_thread? ht ▸ hne)
    dsimp only
    split
    · exact .refuse h _
    · refine .done (.note ?_ _ _) ()
      unfold Kernel.unhold
      dsimp only
      split
      · exact ((hput _).schedule _ _).schedule' _ _
      · exact hput _

theorem sleepThread : Agrees id (k.sleepThread callbacks) (k'.sleepThread callbacks) := by
  unfold Kernel.sleepThread
  refine h.onCurrent fun x t ht hne => ?_
  split
  · exact .done (h.putOther (t := { t with wakeups := t.wakeups - 1 }) (id_of_thread? ht ▸ hne)) _
  · exact (h.beginWait _).map _

/-- A thread that sleeps on hold is woken up as well, and saves the wakeup if it does not sleep. -/
theorem wakeupThread (x : ThreadId) : Agrees id (k.wakeupThread x) (k'.wakeupThread x) := by
  unfold Kernel.wakeupThread
  rw [h.thread?]
  cases ht : k.thread? x with
  | none => exact .refuse h _
  | some t =>
    dsimp only [Option.map_some]
    rw [Thread.isDormant_heldAs]
    split
    · exact .refuse h _
    · have hwait := Thread.wait_heldAs id t
      by_cases hsleep : t.wait.map (·.kind) = some .sleep
      · rw [if_pos hsleep, if_pos (hwait ▸ hsleep)]
        exact .done (h.wake x 0) ()
      · rw [if_neg hsleep, if_neg (hwait ▸ hsleep)]
        exact .done (h.edit (h.status ht) (f := fun t => { t with wakeups := t.wakeups + 1 })
          ⟨fun _ => rfl, fun _ _ => rfl⟩) ()

theorem cancelWakeup (x : ThreadId) : Agrees id (k.cancelWakeup x) (k'.cancelWakeup x) := by
  unfold Kernel.cancelWakeup
  rw [h.thread?]
  cases ht : k.thread? x with
  | none => exact .refuse h _
  | some t =>
    have hput := h.edit (h.status ht) (f := fun t => { t with wakeups := 0 }) ⟨fun _ => rfl, fun _ _ => rfl⟩
    have hwakeups : (t.heldAs id).wakeups = t.wakeups := by rw [Thread.heldAs_eq]
    dsimp only [Option.map_some]
    rw [hwakeups]
    exact .done hput t.wakeups

theorem delayThread : Agrees id (k.delayThread ticks callbacks) (k'.delayThread ticks callbacks) :=
  (h.beginWait _).map _

/-- A thread on hold can be joined. -/
theorem joinThread :
    Agrees id (k.joinThread x timeout timeoutAddress callbacks) (k'.joinThread x timeout timeoutAddress callbacks) := by
  unfold Kernel.joinThread
  rw [h.current, h.thread?]
  split
  · exact .refuse h _
  cases ht : k.thread? x with
  | none => exact .refuse h _
  | some target =>
    dsimp only [Option.map_some]
    rw [Thread.isDormant_heldAs]
    split
    · exact .done h _
    · have hwait := h.beginWait { kind := .join, handle := x, timeout, timeoutAddress, callbacks }
      refine hwait.andThen fun me _ => .done ?_ _
      exact hwait.kernel.edit (h.status ht) (f := fun t => { t with exitWaiters := t.exitWaiters ++ [me] })
        ⟨fun _ => rfl, fun _ _ => rfl⟩

theorem waitThreadEnd :
    Agrees id (k.waitThreadEnd x timeoutAddress callbacks) (k'.waitThreadEnd x timeoutAddress callbacks) := by
  unfold Kernel.waitThreadEnd
  rw [h.readTimeout]
  cases k.readTimeout timeoutAddress with
  | error f => exact .fault h f
  | ok timeout => exact h.joinThread

theorem exitStatus (x : ThreadId) : k'.exitStatus x = k.exitStatus x := by
  unfold Kernel.exitStatus
  rw [h.thread?]
  cases k.thread? x with
  | none => rfl
  | some t =>
    have hcode : (t.heldAs id).exitCode = t.exitCode := by rw [Thread.heldAs_eq]
    dsimp only [Option.map_some]
    rw [Thread.isDormant_heldAs, hcode]

theorem currentPriority : k'.currentPriority = k.currentPriority := by
  unfold Kernel.currentPriority Kernel.thread
  rw [h.currentId]
  cases k.currentId with
  | error e => rfl
  | ok x =>
    dsimp only
    rw [h.thread?]
    cases k.thread? x with
    | none => rfl
    | some t => exact congrArg Except.ok (Thread.priority_heldAs id t)

end Holds

/-! ### All operations -/

theorem Agrees.onThread {call : Kernel → ThreadId → Reply α} (h : Holds id k k')
    (hcall : ∀ x, Agrees id (call k x) (call k' x)) (x : ThreadId) : Agrees id (k.onThread x call) (k'.onThread x call) := by
  unfold Kernel.onThread Kernel.resolve
  rw [h.currentId]
  split
  · exact hcall _
  · exact .refuse h _

theorem Agrees.onOther {call : Kernel → ThreadId → Reply α} (h : Holds id k k')
    (hcall : Agrees id (call k x) (call k' x)) : Agrees id (k.onOther x call) (k'.onOther x call) := by
  unfold Kernel.onOther
  split
  · exact .refuse h _
  · exact hcall

/-- Every call answers alike, but those about the hold or the end of the thread on hold. -/
theorem Holds.perform (h : Holds id k k') (hfresh : k.nextId ≠ id) (call : Syscall) (hends : call.ends? k ≠ some id)
    (hholds : call.suspends? ≠ some id) (hfrees : call.resumes? ≠ some id) :
    Agrees id (k.perform call) (k'.perform call) := by
  have hother : ∀ {x}, some x ≠ some id → x ≠ id := fun hne heq => hne (congrArg some heq)
  cases call with
  | createThread => exact (h.createThread hfresh).map _
  | deleteThread x => exact (h.deleteDormant (hother hends)).map _
  | startThread x => exact h.startThread.map _
  | exitThread exitCode => exact (h.exitCurrent exitCode).map _
  | exitDeleteThread exitCode =>
    have hexit := h.exitCurrent exitCode
    refine (hexit.andThen fun x hx => hexit.kernel.deleteThread ?_).map _
    exact h.ne_of_current (current_of_exitCurrent hx)
  | terminateThread x => exact (Agrees.onOther h (h.terminateThread (hother hends))).map _
  | terminateDeleteThread x =>
    have hended := Agrees.onOther h (h.terminateThread (hother hends))
    exact (hended.andThen fun _ _ => hended.kernel.deleteThread (hother hends)).map _
  | changeThreadPriority x priority => exact (Agrees.onThread h (fun x => h.restorePriority x priority) x).map _
  | waitThreadEnd x => exact h.waitThreadEnd.map _
  | threadId => exact (Agrees.answer h h.currentId).map _
  | threadCurrentPriority => exact (Agrees.answer h h.currentPriority).map _
  | threadExitStatus x => exact (Agrees.onThread h (fun x => .answer h (h.exitStatus x)) x).map _
  | sleepThread callbacks => exact h.sleepThread.map _
  | wakeupThread x => exact (Agrees.onThread h h.wakeupThread x).map _
  | cancelWakeupThread x => exact (Agrees.onThread h h.cancelWakeup x).map _
  | suspendThread x => exact (Agrees.onOther h (h.suspendThread (hother hholds))).map _
  | resumeThread x => exact (Agrees.onOther h (h.resumeThread (hother hfrees))).map _
  | delayThread => exact h.delayThread.map _
  | createCallback => exact (h.createCallback hfresh).map _
  | deleteCallback x => exact h.deleteCallback.map _
  | notifyCallback x => exact h.notifyCallback.map _
  | checkCallback => exact h.checkCallbacks.map _
  | createSemaphore => exact (h.createSemaphore hfresh).map _
  | deleteSemaphore x => exact h.deleteSemaphore.map _
  | signalSemaphore x => exact h.signalSemaphore.map _
  | waitSemaphore x => exact h.waitSemaphore.map _
  | pollSemaphore x => exact h.pollSemaphore.map _
  | cancelSemaphore x => exact h.cancelSemaphore.map _
  | referSemaphore x => exact h.referSemaphore.map _
  | createEventFlag => exact (h.createEventFlag hfresh).map _
  | deleteEventFlag x => exact h.deleteEventFlag.map _
  | setEventFlag x => exact h.setEventFlag.map _
  | clearEventFlag x => exact h.clearEventFlag.map _
  | waitEventFlag x => exact h.waitEventFlag.map _
  | pollEventFlag x => exact h.pollEventFlag.map _
  | cancelEventFlag x => exact h.cancelEventFlag.map _
  | referEventFlag x => exact h.referEventFlag.map _
  | createMutex => exact (h.createMutex hfresh).map _
  | deleteMutex x => exact h.deleteMutex.map _
  | lockMutex x => exact h.lockMutex.map _
  | tryLockMutex x => exact h.tryLockMutex.map _
  | unlockMutex x => exact h.unlockMutex.map _
  | cancelMutex x => exact h.cancelMutex.map _
  | referMutex x => exact h.referMutex.map _
  | createPipe => exact (h.createPipe hfresh).map _
  | deletePipe x => exact h.deletePipe.map _
  | sendPipe x => exact (h.sendPipe ..).map _
  | trySendPipe x => exact (h.trySendPipe _).map _
  | receivePipe x => exact (h.receivePipe ..).map _
  | tryReceivePipe x => exact (h.tryReceivePipe _).map _
  | cancelPipe x => exact h.cancelPipe.map _
  | referPipe x => exact h.referPipe.map _
  | systemTime | systemTimeLow =>
    unfold Kernel.perform
    rw [h.now]
    exact .done h _
  | writeSystemTime address =>
    unfold Kernel.perform
    rw [h.memory, h.now]
    exact (Agrees.withMemory h _).map _
  | allocateMemory => exact (h.allocateMemory hfresh ..).map _
  | freeMemory x => exact (h.freeMemory x).map _
  | blockAddress x => exact (Agrees.answer h (h.blockAddress x)).map _
  | maxFreeMemory => exact (Agrees.answer h (h.threadPartitionSize _)).map _
  | totalFreeMemory => exact (Agrees.answer h (h.threadPartitionSize _)).map _

theorem Agrees.respond {r r' : Reply α} (h : Agrees id r r') (f : α → Answer) :
    Response.answer (r'.map f).result = .answer (r.map f).result ∧ Holds id r.kernel r'.kernel :=
  ⟨congrArg Response.answer (h.map f).result, h.kernel⟩

/-- **What comes in between does not see the hold.** -/
theorem Holds.after (h : Holds id k k') (hfresh : k.nextId ≠ id) {o : Operation} (ho : o.Between k id) :
    k'.respond o = k.respond o ∧ Holds id (k.after o) (k'.after o) := by
  have hother : ∀ {x}, some x ≠ some id → x ≠ id := fun hne heq => hne (congrArg some heq)
  cases o with
  | syscall call =>
    have hcall := h.perform hfresh call ho.ends ho.suspends ho.resumes
    exact ⟨congrArg Response.answer hcall.result, hcall.kernel⟩
  | exitThread x exitCode => exact (h.exitThread (hother ho.ends) exitCode).respond _
  | deleteThread x => exact (h.deleteThread (hother ho.ends)).respond _
  | changePriority x priority => exact (h.changePriority x priority).respond _
  | suspendThread x => exact (h.suspendThread (hother ho.suspends)).respond _
  | resumeThread x => exact (h.resumeThread (hother ho.resumes)).respond _
  | wakeupThread x => exact (h.wakeupThread x).respond _
  | cancelWakeup x => exact (h.cancelWakeup x).respond _
  | delayThread ticks callbacks => exact h.delayThread.respond _
  | joinThread x => exact h.joinThread.respond _
  | terminateThread x => exact (h.terminateThread (hother ho.ends)).respond _
  | finishCallback value => cases ho.finishes
  | advanceClock ticks =>
    have hlater : Holds id { k with clock := k.clock.advance ticks } { k' with clock := k'.clock.advance ticks } :=
      { h with clock := congrArg (·.advance ticks) h.clock }
    obtain ⟨hcount, hkernel⟩ := hlater.expireTimeouts
    exact ⟨congrArg Response.expired hcount, hkernel⟩
  | expireTimeouts =>
    obtain ⟨hcount, hkernel⟩ := h.expireTimeouts
    exact ⟨congrArg Response.expired hcount, hkernel⟩
  | dispatch => exact absurd rfl ho.dispatch
  | guestWrite address bytes =>
    unfold Kernel.respond Kernel.after
    rw [h.memory]
    exact (Agrees.withMemory h (k.memory.writeBytes address bytes)).respond _
  | guestRegister context index value => exact ⟨rfl, h.setRegister context index value⟩

/-! ### The hold and its release -/

/-- Objects other than the thread are the same on hold. -/
theorem map_heldAs_of_ne (k : Kernel) (hx : x ≠ id) : (k.objects.get? x).map (Object.heldAs id) = k.objects.get? x := by
  cases ho : k.objects.get? x with
  | none => rfl
  | some o => exact congrArg some (Object.heldAs_of_ne (ObjectTable.id_of_get? ho ▸ hx))

/-- A thread that waits is put on hold. -/
theorem holds_suspendThread (ht : k.thread? id = some t) (hw : t.status = .onlyWaiting) (hc : k.current ≠ some id) :
    (k.suspendThread id).result = .ok () ∧ Holds id k (k.suspendThread id).kernel := by
  obtain rfl := id_of_thread? ht
  have hheld : k.suspendThread t.id = ((k.hold t).note (.threadSuspended t.id)).done () := by
    have hactive : t.isDormant = false ∧ t.status.suspended = false := by
      unfold Thread.isDormant
      rw [hw]
      decide
    unfold suspendThread
    rw [if_neg hc, ht]
    simp [hactive]
  have hsuspend : { t with status := t.status.suspend } = t.heldAs t.id := by
    rw [Thread.heldAs_self, Thread.onHold, hw]
    rfl
  rw [hheld]
  refine ⟨rfl, ⟨rfl, rfl, rfl, rfl, fun x => ?_, rfl, rfl, rfl, rfl, rfl, hc, t, ht, Or.inl hw⟩⟩
  show (k.objects.put (.thread { t with status := t.status.suspend })).get? x = _
  rw [hsuspend, ObjectTable.get?_put]
  split
  · next hx =>
    obtain rfl : t.id = x := (Thread.id_heldAs t.id t).symm.trans hx
    rw [ObjectTable.thread?_eq_some.mp ht]
    rfl
  · next hx => exact (k.map_heldAs_of_ne fun heq => hx ((Thread.id_heldAs t.id t).trans heq.symm)).symm

theorem unhold_eq (k : Kernel) (t : Thread) :
    ∃ objects ready journal, k.unhold t = { k with objects, ready, journal } := by
  unfold unhold
  dsimp only
  split
  · unfold schedule
    split <;> exact ⟨_, _, _, rfl⟩
  · exact ⟨_, _, _, rfl⟩

/-- The release of a thread gives back what the hold took. -/
theorem objects_unhold (hs : t.status = .onlyWaiting ∨ t.status = .onlyReady) :
    (k.unhold t.onHold).objects = k.objects.put (.thread t) := by
  have hreleased : ∀ status, t.status = status → { t.onHold with status } = t := by
    rintro _ rfl
    rfl
  obtain hw | hr := hs
  · have hstatus : { t.onHold.status with suspended := false } = ThreadStatus.onlyWaiting := by
      rw [Thread.onHold, hw]
      rfl
    unfold unhold
    dsimp only
    rw [hstatus, if_neg (by decide), hreleased _ hw]
    rfl
  · have hstatus : { t.onHold.status with suspended := false } = ({} : ThreadStatus) := by
      rw [Thread.onHold, hr]
      rfl
    unfold unhold
    dsimp only
    rw [if_pos hstatus, hreleased _ hr, objects_schedule]
    rfl

/-- **The release of the thread leaves no trace of the hold.** -/
theorem Holds.release (h : Holds id k k') (hc : k.Coherent) (hc' : k'.Coherent) :
    (k'.resumeThread id).result = .ok () ∧ k.Alike (k'.resumeThread id).kernel := by
  obtain ⟨t, ht, hstatus⟩ := h.aside
  obtain rfl := id_of_thread? ht
  have ht' : k'.thread? t.id = some t.onHold := by
    rw [h.thread?, ht]
    exact congrArg some (Thread.heldAs_self t)
  have hresume : k'.resumeThread t.id = ((k'.unhold t.onHold).note (.threadResumed t.id)).done () := by
    unfold Kernel.resumeThread
    rw [ht']
    exact if_neg (not_not.mpr rfl)
  have hobjects : (k'.unhold t.onHold).objects = k.objects := by
    rw [objects_unhold hstatus]
    refine ObjectTable.ext_get? (fun x => ?_) h.nextId
    rw [ObjectTable.get?_put, h.objects]
    split
    · next hx =>
      obtain rfl : t.id = x := hx
      exact (ObjectTable.thread?_eq_some.mp ht).symm
    · next hx => exact k.map_heldAs_of_ne (Ne.symm hx)
  have hready : k.ready.Alike (k'.unhold t.onHold).ready := by
    have hlists := (hc'.unhold (t := t.onHold) ht' rfl).ready
    have hthreads : (k'.unhold t.onHold).thread? = k.thread? :=
      congrArg (fun objects : ObjectTable => objects.thread?) hobjects
    rw [hthreads] at hlists
    exact hc.ready.alike hlists
  obtain ⟨objects, ready, journal, heq⟩ := unhold_eq k' t.onHold
  rw [hresume]
  rw [heq] at hobjects hready ⊢
  exact ⟨rfl, h.config, h.memory, h.contexts, hobjects, h.partitions, h.started, hready, h.current, h.clock, h.delivering⟩

/-- **Suspension commutes with a wait.** In every reachable state, to put a thread that waits off the processor on hold,
then to do something else, and then to release the thread gives the results and the kernel of doing that alone, but for
the order of ready threads of one priority. -/
theorem suspension_run (config : KernelConfig) (memory : Memory) (operations : List Operation)
    (hids : (Kernel.new config memory).handedOut operations < 2 ^ 32 - 1) {id : ThreadId} {t : Thread}
    (ht : ((Kernel.new config memory).run operations).thread? id = some t) (hwaits : t.status.waiting = true)
    (hfree : t.status.suspended = false) (haway : ((Kernel.new config memory).run operations).current ≠ some id)
    (o : Operation) (ho : o.Between ((Kernel.new config memory).run operations) id) :
    let k := (Kernel.new config memory).run operations
    let held := (k.suspendThread id).kernel
    let released := (held.after o).resumeThread id
    (k.suspendThread id).result = .ok () ∧ held.respond o = k.respond o ∧ released.result = .ok () ∧
      (k.after o).Alike released.kernel := by
  intro k held released
  have hc := (placed_run config memory operations hids).1
  have hn : k.started.Nodup := nodup_started_run config memory operations
  have hw : t.status = .onlyWaiting := by
    obtain hw | hw := (hc.1.threads id t ht).of_waiting hwaits
    · exact hw
    · rw [hw] at hfree
      cases hfree
  obtain ⟨hsuspended, hheld⟩ := holds_suspendThread ht hw haway
  have hfresh : k.nextId ≠ id := by
    rintro rfl
    cases hc.2.fresh.symm.trans (ObjectTable.thread?_eq_some.mp ht)
  obtain ⟨hrespond, hafter⟩ := hheld.after hfresh ho
  -- Neither the hold nor what follows it breaks the scheduler.
  have hheldc : held.Coherent ∧ held.IdsBelow :=
    coherent_after (o := .suspendThread id) hc hn fun hne => absurd hheld.nextId hne
  have hcoherent : ∀ {k : Kernel}, k.Coherent ∧ k.IdsBelow → k.started.Nodup → (k.after o).Coherent := fun hc hn =>
    (staged_after (P := fun _ => True) hc hn (fun _ _ _ _ _ _ _ _ => trivial) trivial).1
  have hn' : held.started.Nodup := by
    rw [show held.started = k.started from hheld.started]
    exact hn
  obtain ⟨hresumed, halike⟩ := hafter.release (hcoherent hc hn) (hcoherent hheldc hn')
  exact ⟨hsuspended, hrespond, hresumed, halike⟩

/-- A thread waits for a unit of a semaphore while another one, which could give it, runs. -/
def awaitedUnit : List Operation :=
  [.syscall (.createThread "taker" 0x08900000 32 0x1000 0), .syscall (.createThread "giver" 0x08900000 40 0x1000 0),
    .syscall (.createSemaphore "units" 0 0 4), .syscall (.startThread 1 0 0), .syscall (.startThread 2 0 0), .dispatch,
    .syscall (.waitSemaphore 3 1 0 false), .dispatch]

/-- The unit comes while the thread that waits for it is on hold: it has the unit, stays on hold and is ready once it is
released, as it would have been at once. -/
theorem suspension_run_awaitedUnit :
    let k := (Kernel.new {} {}).run awaitedUnit
    let held := (k.suspendThread 1).kernel
    let give := Operation.syscall (.signalSemaphore 3 1)
    (Kernel.new {} {}).handedOut awaitedUnit < 2 ^ 32 - 1 ∧ (k.thread? 1).map (·.status) = some .onlyWaiting ∧
      k.current = some 2 ∧ ((k.after give).thread? 1).map (·.status) = some .onlyReady ∧
      ((held.after give).thread? 1).map (·.status) = some .onlySuspended ∧ held.respond give = k.respond give ∧
      (k.after give).Alike ((held.after give).resumeThread 1).kernel := by
  intro k held give
  have hids : (Kernel.new {} {}).handedOut awaitedUnit < 2 ^ 32 - 1 := handedOut_lt (by decide)
  have hwaits : (k.thread? 1).map (·.status) = some .onlyWaiting := by decide +kernel
  have hgiver : k.current = some 2 := by decide +kernel
  obtain ⟨t, ht, hw⟩ := Option.map_eq_some_iff.mp hwaits
  obtain ⟨-, hrespond, -, halike⟩ := suspension_run {} {} awaitedUnit hids ht (by rw [hw]; rfl) (by rw [hw]; rfl)
    (by decide +kernel) give ⟨by decide, rfl, by decide, by decide, by decide⟩
  exact ⟨hids, hwaits, hgiver, by decide +kernel, by decide +kernel, hrespond, halike⟩

end Kernel
end GuestKernel
