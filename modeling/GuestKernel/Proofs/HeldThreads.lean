/-
# A thread on hold

Two kernels that differ in one thread, which is on hold in the second one and waits or is ready in the first, answer
every call alike and go on to differ in that alone (`Holds`). What is not compared is the ready queue and the journal:
no call but a dispatch looks at the one, and none at the other.

| | first kernel | second kernel |
| --- | --- | --- |
| the thread waits | `onlyWaiting` | `waitSuspended` |
| its wait has ended | `onlyReady`, queued | `onlySuspended`, not queued |

Source: specification, 4.2.
-/

import GuestKernel.Proofs.PipeMoves
import GuestKernel.Proofs.Timeouts

namespace GuestKernel

/-- The thread on hold. -/
def Thread.onHold (t : Thread) : Thread := { t with status := { t.status with ready := false, suspended := true } }

/-- A thread as it is while the thread `id` is on hold. -/
def Thread.heldAs (id : ThreadId) (t : Thread) : Thread := if t.id = id then t.onHold else t

/-- An object as it is while the thread `id` is on hold. -/
def Object.heldAs (id : ThreadId) : Object → Object
  | thread t => thread (t.heldAs id)
  | o => o

namespace Thread

variable {id : ThreadId} {t : Thread} {f : Thread → Thread}

theorem heldAs_of_ne (h : t.id ≠ id) : t.heldAs id = t := if_neg h

theorem heldAs_self (t : Thread) : t.heldAs t.id = t.onHold := if_pos rfl

/-- Besides the status, a thread on hold is what it was. -/
theorem heldAs_eq (id : ThreadId) (t : Thread) : t.heldAs id = { t with status := (t.heldAs id).status } := by
  unfold heldAs
  split <;> rfl

@[simp] theorem id_heldAs (id : ThreadId) (t : Thread) : (t.heldAs id).id = t.id := by rw [heldAs_eq]

@[simp] theorem wait_heldAs (id : ThreadId) (t : Thread) : (t.heldAs id).wait = t.wait := by rw [heldAs_eq]

@[simp] theorem priority_heldAs (id : ThreadId) (t : Thread) : (t.heldAs id).priority = t.priority := by rw [heldAs_eq]

@[simp] theorem context_heldAs (id : ThreadId) (t : Thread) : (t.heldAs id).context = t.context := by rw [heldAs_eq]

@[simp] theorem dead_heldAs (id : ThreadId) (t : Thread) : (t.heldAs id).status.dead = t.status.dead := by
  unfold heldAs
  split <;> rfl

@[simp] theorem isDormant_heldAs (id : ThreadId) (t : Thread) : (t.heldAs id).isDormant = t.isDormant := by
  unfold heldAs
  split <;> rfl

/-- The change of a thread keeps its id and does not look at its status. -/
structure Edits (f : Thread → Thread) : Prop where
  id (t : Thread) : (f t).id = t.id
  status (t : Thread) (status : ThreadStatus) : f { t with status } = { f t with status }

theorem Edits.status_eq (h : Edits f) (t : Thread) : (f t).status = t.status := by
  have hstatus : (f { t with status := t.status }).status = t.status := by rw [h.status]
  exact hstatus

/-- Such a change may come before a hold or after it. -/
theorem Edits.heldAs (h : Edits f) (t : Thread) : f (t.heldAs id) = (f t).heldAs id := by
  unfold Thread.heldAs
  rw [h.id t]
  split
  · unfold onHold
    rw [h.status, h.status_eq]
  · rfl

theorem unpark_heldAs (id : ThreadId) (t : Thread) (result : Int32) :
    (t.heldAs id).unpark result = (t.unpark result).heldAs id := by
  unfold heldAs
  by_cases hid : t.id = id
  · rw [if_pos hid, if_pos (show (t.unpark result).id = id from hid)]
    simp [unpark, onHold, ThreadStatus.unpark]
  · rw [if_neg hid, if_neg (show (t.unpark result).id ≠ id from hid)]

end Thread

theorem Object.kind_heldAs (id : ThreadId) (o : Object) : (o.heldAs id).kind = o.kind := by
  cases o <;> rfl

theorem Object.id_heldAs (id : ThreadId) (o : Object) : (o.heldAs id).id = o.id := by
  cases o with
  | thread t => exact Thread.id_heldAs id t
  | _ => rfl

theorem Object.waiting_heldAs (id : ThreadId) (o : Object) : (o.heldAs id).waiting = o.waiting := by
  cases o with
  | thread t =>
    show (t.heldAs id).exitWaiters = t.exitWaiters
    rw [Thread.heldAs_eq]
  | _ => rfl

theorem Object.removeWaiter_heldAs (id : ThreadId) (o : Object) (x : ThreadId) :
    (o.heldAs id).removeWaiter x = (o.removeWaiter x).heldAs id := by
  cases o with
  | thread t =>
    have hedits : Thread.Edits fun t => { t with exitWaiters := t.exitWaiters.filter (· != x) } :=
      ⟨fun _ => rfl, fun _ _ => rfl⟩
    exact congrArg Object.thread (hedits.heldAs t)
  | messagePipe p =>
    unfold removeWaiter heldAs
    dsimp only
    split <;> rfl
  | _ => rfl

theorem Object.heldAs_of_ne {id : ThreadId} {o : Object} (h : o.id ≠ id) : o.heldAs id = o := by
  cases o with
  | thread t => exact congrArg Object.thread (Thread.heldAs_of_ne h)
  | _ => rfl

namespace Kernel

variable {id : ThreadId} {k k' : Kernel} {x : ObjectId} {α β : Type}

/-- The thread `id` is on hold in the second kernel, and waits or is ready in the first one, off the processor. The ready
queue and the journal apart the kernels do not differ in anything else. -/
structure Holds (id : ThreadId) (k k' : Kernel) : Prop where
  config : k'.config = k.config
  memory : k'.memory = k.memory
  contexts : k'.contexts = k.contexts
  nextId : k'.objects.nextId = k.objects.nextId
  objects : ∀ x, k'.objects.get? x = (k.objects.get? x).map (Object.heldAs id)
  partitions : k'.partitions = k.partitions
  started : k'.started = k.started
  current : k'.current = k.current
  clock : k'.clock = k.clock
  delivering : k'.delivering = k.delivering
  away : k.current ≠ some id
  aside : ∃ t, k.thread? id = some t ∧ (t.status = .onlyWaiting ∨ t.status = .onlyReady)

/-- Two replies are the same but for the hold on a thread. -/
structure Agrees (id : ThreadId) (r r' : Reply α) : Prop where
  result : r'.result = r.result
  kernel : Holds id r.kernel r'.kernel

/-! ### What both kernels see -/

namespace Holds

variable (h : Holds id k k')

include h

theorem thread? (x : ThreadId) : k'.thread? x = (k.thread? x).map (Thread.heldAs id) := by
  rw [Kernel.thread?, Kernel.thread?, ObjectTable.thread?_eq_bind, ObjectTable.thread?_eq_bind, h.objects]
  cases k.objects.get? x with
  | none => rfl
  | some o => cases o <;> rfl

theorem thread?_of_ne (hx : x ≠ id) : k'.thread? x = k.thread? x := by
  rw [h.thread?]
  cases ht : k.thread? x with
  | none => rfl
  | some t => exact congrArg some (Thread.heldAs_of_ne fun heq => hx ((id_of_thread? ht).symm.trans heq))

/-- Objects other than threads are the same. -/
theorem get?_iff {o : Object} (hk : o.kind ≠ .thread) : k'.objects.get? x = some o ↔ k.objects.get? x = some o := by
  rw [h.objects, Option.map_eq_some_iff]
  constructor
  · rintro ⟨o', ho', heq⟩
    cases o' with
    | thread t => exact absurd (heq ▸ rfl) hk
    | _ => exact heq ▸ ho'
  · intro ho
    refine ⟨o, ho, ?_⟩
    cases o with
    | thread t => exact absurd rfl hk
    | _ => rfl

theorem callback? (x : ObjectId) : k'.objects.callback? x = k.objects.callback? x :=
  Option.ext fun c => by
    rw [ObjectTable.callback?_eq_some, ObjectTable.callback?_eq_some, h.get?_iff (by simp [Object.kind])]

theorem semaphore? (x : ObjectId) : k'.objects.semaphore? x = k.objects.semaphore? x :=
  Option.ext fun s => by
    rw [ObjectTable.semaphore?_eq_some, ObjectTable.semaphore?_eq_some, h.get?_iff (by simp [Object.kind])]

theorem eventFlag? (x : ObjectId) : k'.objects.eventFlag? x = k.objects.eventFlag? x :=
  Option.ext fun f => by
    rw [ObjectTable.eventFlag?_eq_some, ObjectTable.eventFlag?_eq_some, h.get?_iff (by simp [Object.kind])]

theorem mutex? (x : ObjectId) : k'.objects.mutex? x = k.objects.mutex? x :=
  Option.ext fun m => by
    rw [ObjectTable.mutex?_eq_some, ObjectTable.mutex?_eq_some, h.get?_iff (by simp [Object.kind])]

theorem messagePipe? (x : ObjectId) : k'.objects.messagePipe? x = k.objects.messagePipe? x :=
  Option.ext fun p => by
    rw [ObjectTable.messagePipe?_eq_some, ObjectTable.messagePipe?_eq_some, h.get?_iff (by simp [Object.kind])]

theorem partitionMemory? (x : ObjectId) : k'.objects.partitionMemory? x = k.objects.partitionMemory? x :=
  Option.ext fun b => by
    rw [ObjectTable.partitionMemory?_eq_some, ObjectTable.partitionMemory?_eq_some,
      h.get?_iff (by simp [Object.kind])]

theorem isSome_find? (kind : ObjectKind) (x : ObjectId) :
    (k'.objects.find? kind x).isSome = (k.objects.find? kind x).isSome := by
  unfold ObjectTable.find?
  rw [h.objects]
  cases k.objects.get? x with
  | none => rfl
  | some o =>
    simp only [Option.map_some, Option.filter, Object.kind_heldAs]
    split <;> rfl

theorem now : k'.now = k.now := by rw [Kernel.now, h.clock, Kernel.now]

/-- No other object has the id of the thread. -/
theorem ne_of_kind {o : Object} (ho : k.objects.get? x = some o) (hk : o.kind ≠ .thread) : x ≠ id := by
  rintro rfl
  obtain ⟨t, ht, -⟩ := h.aside
  rw [ObjectTable.thread?_eq_some.mp ht, Option.some.injEq] at ho
  exact hk (ho ▸ rfl)

/-- The running thread is not the one on hold. -/
theorem ne_of_current (hc : k.current = some x) : x ≠ id := fun heq => h.away (heq ▸ hc)

/-! ### Updates of both kernels -/

theorem noteAll (es es' : List Event) : Holds id (k.noteAll es) (k'.noteAll es') := { h with }

theorem note (e e' : Event) : Holds id (k.note e) (k'.note e') := { h with }

theorem setMemory (m : Memory) : Holds id { k with memory := m } { k' with memory := m } :=
  { h with memory := rfl }

theorem setContexts (c : Contexts) : Holds id { k with contexts := c } { k' with contexts := c } :=
  { h with contexts := rfl }

/-- The ready queues are not compared. -/
theorem setReady (q q' : ReadyQueue) : Holds id { k with ready := q } { k' with ready := q' } :=
  { h with }

theorem schedule (x : ThreadId) (priority : UInt32) : Holds id (k.schedule x priority) k' := by
  unfold Kernel.schedule
  split <;> exact { h with }

theorem schedule' (x : ThreadId) (priority : UInt32) : Holds id k (k'.schedule x priority) := by
  unfold Kernel.schedule
  split <;> exact { h with }

/-- Another version of an object is stored in both kernels. -/
theorem putHeld (o : Object)
    (hstatus : ∀ t, o = .thread t → t.id = id → t.status = .onlyWaiting ∨ t.status = .onlyReady)
    (hkind : o.id = id → o.kind = .thread) : Holds id (k.put o) (k'.put (o.heldAs id)) := by
  have hget : ∀ {k : Kernel} (o : Object) (x : ObjectId),
      (k.put o).objects.get? x = if o.id = x then some o else k.objects.get? x := fun o x => ObjectTable.get?_put ..
  refine { h with objects := fun x => ?_, aside := ?_ }
  · rw [hget, hget, h.objects, Object.id_heldAs]
    split <;> rfl
  · obtain ⟨t, ht, hold⟩ := h.aside
    rw [thread?_put]
    split
    · next hid =>
      cases o with
      | thread u => exact ⟨u, rfl, hstatus u rfl hid⟩
      | _ => cases hkind hid
    · exact ⟨t, ht, hold⟩

theorem put {o : Object} (hne : o.id ≠ id) : Holds id (k.put o) (k'.put o) := by
  have hput := h.putHeld o (by rintro t rfl hid; exact absurd hid hne) fun hid => absurd hid hne
  rwa [Object.heldAs_of_ne hne] at hput

/-- An object other than a thread changes in both kernels. -/
theorem change {o : Object} (ho : k.objects.get? x = some o) (hk : o.thread? = none) (o' : Object)
    (hid : o'.id = o.id) : Holds id (k.put o') (k'.put o') := by
  refine h.put ?_
  rw [hid, ObjectTable.id_of_get? ho]
  exact h.ne_of_kind ho (Object.thread?_eq_none.mp hk)

/-- A thread changes in both kernels. -/
theorem putThread {t u : Thread} (hu : u = t.heldAs id)
    (hstatus : t.id = id → t.status = .onlyWaiting ∨ t.status = .onlyReady) :
    Holds id (k.putThread t) (k'.putThread u) := by
  subst hu
  exact h.putHeld (.thread t) (by rintro _ ⟨⟩ hid; exact hstatus hid) fun _ => rfl

/-- A thread other than the one on hold changes in both kernels. -/
theorem putOther {t : Thread} (hne : t.id ≠ id) : Holds id (k.putThread t) (k'.putThread t) :=
  h.put hne

/-- The status of the thread that is on hold in the other kernel. -/
theorem status {t : Thread} (ht : k.thread? x = some t) (hid : t.id = id) :
    t.status = .onlyWaiting ∨ t.status = .onlyReady := by
  obtain ⟨t', ht', hstatus⟩ := h.aside
  rw [← id_of_thread? ht, hid, ht', Option.some.injEq] at ht
  exact ht ▸ hstatus

/-- A change of a thread that does not look at its status is made in both kernels. -/
theorem edit {t : Thread} (hstatus : t.id = id → t.status = .onlyWaiting ∨ t.status = .onlyReady)
    {f : Thread → Thread} (hf : Thread.Edits f) : Holds id (k.putThread (f t)) (k'.putThread (f (t.heldAs id))) := by
  refine h.putThread (hf.heldAs t) fun heq => ?_
  rw [hf.status_eq]
  exact hstatus (hf.id t ▸ heq)

theorem erase (hne : x ≠ id) :
    Holds id { k with objects := k.objects.erase x } { k' with objects := k'.objects.erase x } := by
  refine { h with objects := fun y => ?_, aside := ?_ }
  · show (k'.objects.erase x).get? y = ((k.objects.erase x).get? y).map _
    rw [ObjectTable.get?_erase, ObjectTable.get?_erase, h.objects]
    split <;> rfl
  · obtain ⟨t, ht, hstatus⟩ := h.aside
    refine ⟨t, ?_, hstatus⟩
    exact (ObjectTable.thread?_erase ..).trans ((if_neg hne).trans ht)

theorem registerNew (o : Object) (hne : o.id ≠ id) : Holds id (k.registerNew o) (k'.registerNew o) := by
  have hput := h.put hne
  exact { hput with nextId := congrArg (· + 1) h.nextId }

theorem setRegister (context : ContextId) (index : Nat) (value : UInt32) :
    Holds id (k.setRegister context index value) (k'.setRegister context index value) := by
  unfold Kernel.setRegister
  rw [h.contexts]
  exact (h.noteAll _ _).setContexts _

theorem releaseContext (context : ContextId) : Holds id (k.releaseContext context) (k'.releaseContext context) := by
  unfold Kernel.releaseContext
  rw [h.contexts]
  exact (h.noteAll _ _).setContexts _

theorem allocateContext (entry : UInt32) (registers : Registers) :
    Holds id (k.allocateContext entry registers) (k'.allocateContext entry registers) := by
  unfold Kernel.allocateContext
  rw [h.contexts]
  exact (h.noteAll _ _).setContexts _

/-! ### Waking and waiting -/

theorem writeRemaining (x : ThreadId) (w : Wait) : Holds id (k.writeRemaining x w) (k'.writeRemaining x w) := by
  unfold Kernel.writeRemaining
  rw [h.now, h.memory]
  split
  · exact h
  split
  · exact h
  split
  · exact h.setMemory _
  · exact (h.note _ _).note _ _

theorem giveResult {t t' : Thread} (ht : t'.context = t.context) (result : Int32) :
    Holds id (k.giveResult t result) (k'.giveResult t' result) := by
  unfold Kernel.giveResult
  rw [ht]
  split
  · exact h.setRegister _ _ _
  · exact h

/-- **A thread is woken in both kernels**; the one on hold enters the ready queue of the first only. -/
theorem wake (x : ThreadId) (result : Int32) : Holds id (k.wake x result) (k'.wake x result) := by
  have ht' := h.thread? x
  cases ht : k.thread? x with
  | none =>
    rw [ht] at ht'
    rw [wake_of_unknown ht, wake_of_unknown ht']
    exact h.note _ _
  | some t =>
    rw [ht, Option.map_some] at ht'
    cases hw : t.wait with
    | none =>
      rw [wake_of_idle ht hw, wake_of_idle ht' ((t.wait_heldAs id).trans hw)]
      exact h.note _ _
    | some w =>
      rw [wake_eq ht hw, wake_eq ht' ((t.wait_heldAs id).trans hw), Thread.unpark_heldAs]
      have hput : Holds id (k.putThread (t.unpark result)) (k'.putThread ((t.unpark result).heldAs id)) := by
        refine h.putThread rfl fun hid => Or.inr ?_
        rcases h.status ht hid with hstatus | hstatus
        · show t.status.unpark = _
          rw [hstatus]
          rfl
        · show t.status.unpark = _
          rw [hstatus]
          rfl
      have hgiven := (hput.writeRemaining x w).giveResult (t.context_heldAs id) result
      dsimp only
      refine Holds.note ?_ _ _
      split
      · split
        · exact hgiven
        · exact hgiven.schedule' _ _
      · split
        · exact hgiven.schedule _ _
        · exact (hgiven.schedule _ _).schedule' _ _

theorem wakeAll (ids : List ThreadId) (result : Int32) : Holds id (k.wakeAll ids result) (k'.wakeAll ids result) := by
  unfold Kernel.wakeAll
  induction ids generalizing k k' with
  | nil => exact h
  | cons x rest ih => exact ih (h.wake x result)

theorem detach (x : ThreadId) (w : Wait) : Holds id (k.detach x w) (k'.detach x w) := by
  unfold Kernel.detach
  split
  · exact h
  rw [h.objects]
  cases ho : k.objects.get? w.handle with
  | none => exact h.note _ _
  | some o =>
    rw [Option.map_some]
    dsimp only
    rw [Object.waiting_heldAs, Object.removeWaiter_heldAs]
    split
    · refine h.putHeld (o.removeWaiter x) (fun t ht hid => ?_) fun hid => ?_
      · cases o with
        | thread u =>
          cases ht
          exact h.status (t := u) (ObjectTable.thread?_eq_some.mpr ho) hid
        | messagePipe p =>
          unfold Object.removeWaiter at ht
          dsimp only at ht
          split at ht <;> cases ht
        | _ => cases ht
      · rw [Object.id_removeWaiter, ObjectTable.id_of_get? ho] at hid
        rw [Object.kind_removeWaiter]
        by_contra hk
        exact h.ne_of_kind ho hk hid
    · exact h.note _ _

theorem expire (x : ThreadId) (w : Wait) : Holds id (k.expire x w) (k'.expire x w) :=
  ((h.detach x w).note _ _).wake _ _

theorem expireAll (due : List (ThreadId × Wait)) : Holds id (k.expireAll due) (k'.expireAll due) := by
  unfold Kernel.expireAll
  induction due generalizing k k' with
  | nil => exact h
  | cons e rest ih => exact ih (h.expire e.1 e.2)

/-- The same waits are overdue, and they end in the same order. -/
theorem expireTimeouts :
    k'.expireTimeouts.1 = k.expireTimeouts.1 ∧ Holds id k.expireTimeouts.2 k'.expireTimeouts.2 := by
  have hwaits : k'.waits = k.waits := by
    unfold Kernel.waits
    rw [h.started]
    congr 1
    funext x
    rw [h.thread?]
    cases k.thread? x with
    | none => rfl
    | some t =>
      rw [Option.map_some]
      dsimp only
      rw [Thread.wait_heldAs]
  have hoverdue : k'.overdue = k.overdue := by
    unfold Kernel.overdue
    rw [hwaits, h.now]
  unfold Kernel.expireTimeouts
  rw [hoverdue]
  exact ⟨rfl, h.expireAll k.overdue⟩

/-- A thread other than the one on hold dies. -/
theorem retire {t : Thread} (hne : t.id ≠ id) (exitCode : Int32) :
    Holds id (k.retire t exitCode) (k'.retire t exitCode) := by
  have hfell : Holds id (k.fell t exitCode) (k'.fell t exitCode) := by
    have hput := h.putOther (t := t.die exitCode) hne
    refine { hput with current := ?_, away := ?_ }
    · show (if k'.current = _ then _ else k'.current) = if k.current = _ then _ else k.current
      rw [h.current]
    · show (if k.current = some t.id then none else k.current) ≠ some id
      split
      · exact fun heq => by cases heq
      · exact h.away
  obtain ⟨hw, heq⟩ | ⟨w, hw, heq⟩ := retire_eq k t exitCode <;> rw [heq]
  · obtain ⟨-, heq'⟩ | ⟨w', hw', -⟩ := retire_eq k' t exitCode
    · rw [heq']
      exact hfell
    · cases hw.symm.trans hw'
  · obtain ⟨hw', -⟩ | ⟨w', hw', heq'⟩ := retire_eq k' t exitCode
    · cases hw'.symm.trans hw
    · obtain rfl := Option.some.inj (hw.symm.trans hw')
      rw [heq']
      exact hfell.detach t.id w

theorem exit {t : Thread} (hne : t.id ≠ id) (exitCode : Int32) : Holds id (k.exit t exitCode) (k'.exit t exitCode) := by
  unfold Kernel.exit
  split
  · exact h
  · exact ((h.retire hne exitCode).note _ _).wakeAll _ _

end Holds

namespace Agrees

variable {r r' : Reply α}

theorem done (h : Holds id k k') (a : α) : Agrees id (k.done a) (k'.done a) := ⟨rfl, h⟩

theorem refuse (h : Holds id k k') (e : KernelError) : Agrees id (k.refuse e : Reply α) (k'.refuse e) := ⟨rfl, h⟩

theorem fault (h : Holds id k k') (f : Fault) : Agrees id (k.fault f : Reply α) (k'.fault f) := ⟨rfl, h.note _ _⟩

theorem answer (h : Holds id k k') {result result' : Except KernelError α} (hresult : result' = result) :
    Agrees id (k.answer result) (k'.answer result') := ⟨hresult, h⟩

theorem map (h : Agrees id r r') (f : α → β) : Agrees id (r.map f) (r'.map f) where
  result := congrArg (Except.map f) h.result
  kernel := h.kernel

/-- Replies that agree have one result and two kernels. -/
theorem parts (h : Agrees id r r') : ∃ result k k', r = ⟨result, k⟩ ∧ r' = ⟨result, k'⟩ ∧ Holds id k k' :=
  ⟨r.result, r.kernel, r'.kernel, rfl, congrArg (Reply.mk · r'.kernel) h.result, h.kernel⟩

/-- Replies that agree may be gone on from alike. -/
theorem andThen {next next' : α → Kernel → Reply β} (h : Agrees id r r')
    (hnext : ∀ a, r.result = .ok a → Agrees id (next a r.kernel) (next' a r'.kernel)) :
    Agrees id (r.andThen next) (r'.andThen next') := by
  obtain ⟨result, k, k', rfl, rfl, hk⟩ := h.parts
  cases result with
  | error e => exact ⟨rfl, hk⟩
  | ok a => exact hnext a rfl

theorem withMemory (h : Holds id k k') (m : Except Fault Memory) : Agrees id (k.withMemory m) (k'.withMemory m) := by
  cases m with
  | ok m => exact done (h.setMemory m) ()
  | error f => exact fault h f

end Agrees

namespace Holds

variable (h : Holds id k k')

include h

/-- A call on the running thread, which is the same in both kernels. -/
theorem onCurrent {next next' : ThreadId → Thread → Reply α}
    (hnext : ∀ x t, k.thread? x = some t → x ≠ id → Agrees id (next x t) (next' x t)) :
    Agrees id
      (match k.current with
        | none => k.refuse .illegalContext
        | some x =>
          match k.thread? x with
          | none => k.refuse (.unknown .thread x)
          | some t => next x t)
      (match k'.current with
        | none => k'.refuse .illegalContext
        | some x =>
          match k'.thread? x with
          | none => k'.refuse (.unknown .thread x)
          | some t => next' x t) := by
  rw [h.current]
  cases hc : k.current with
  | none => exact .refuse h _
  | some x =>
    have hne := h.ne_of_current hc
    dsimp only
    rw [h.thread?_of_ne hne]
    cases ht : k.thread? x with
    | none => exact .refuse h _
    | some t => exact hnext x t ht hne

/-- The running thread is parked in both kernels. -/
theorem beginWait (w : Wait) : Agrees id (k.beginWait w) (k'.beginWait w) := by
  unfold Kernel.beginWait
  rw [h.delivering, h.now]
  split
  · exact .refuse h _
  refine h.onCurrent fun x t ht hne => ?_
  have hput := (h.note (.waitBegun x w.kind w.handle) (.waitBegun x w.kind w.handle)).putOther
    (t := t.park { w with since := k.now }) (id_of_thread? ht ▸ hne)
  have hparked : Holds id ((k.note (.waitBegun x w.kind w.handle)).park t { w with since := k.now })
      ((k'.note (.waitBegun x w.kind w.handle)).park t { w with since := k.now }) :=
    { hput with
      current := rfl
      away := fun heq => by cases heq }
  exact .done hparked x

theorem readTimeout (address : UInt32) : k'.readTimeout address = k.readTimeout address := by
  unfold Kernel.readTimeout
  rw [h.memory]

/-- A thread that is not held is blocked alike, whether or not another is held. -/
theorem block {ρ : Type} (w : Wait) (request : ρ) {queue : Waiter ρ → Object}
    (hqueue : ∀ w, (queue w).id ≠ id) : Agrees id (k.block w request queue) (k'.block w request queue) := by
  unfold Kernel.block
  rw [h.readTimeout]
  cases hr : k.readTimeout w.timeoutAddress with
  | error f => exact .fault h f
  | ok timeout =>
    refine h.onCurrent fun x t _ _ => ?_
    exact (h.beginWait { w with timeout }).andThen fun a _ =>
      .done ((h.beginWait { w with timeout }).kernel.put (hqueue _)) _

/-- The running thread is parked on an object other than a thread. -/
theorem blockOn {ρ : Type} {o : Object} (ho : k.objects.get? x = some o) (hk : o.thread? = none)
    (w : Wait) (request : ρ) {queue : Waiter ρ → Object} (hid : ∀ w, (queue w).id = o.id) :
    Agrees id (k.block w request queue) (k'.block w request queue) := by
  refine h.block w request fun w => ?_
  rw [hid, ObjectTable.id_of_get? ho]
  exact h.ne_of_kind ho (Object.thread?_eq_none.mp hk)

/-! ### Registration and partitions -/

theorem unregister (kind : ObjectKind) (x : ObjectId) (hx : kind = .thread → x ≠ id) :
    Agrees id (k.unregister kind x) (k'.unregister kind x) := by
  have hsame := h.isSome_find? kind x
  unfold Kernel.unregister
  cases ho : k.objects.find? kind x with
  | none =>
    rw [ho] at hsame
    rw [Option.isSome_eq_false_iff.mp hsame |> Option.isNone_iff_eq_none.mp]
    exact .refuse h _
  | some o =>
    rw [ho] at hsame
    obtain ⟨o', ho'⟩ := Option.isSome_iff_exists.mp hsame
    rw [ho']
    obtain ⟨hget, hkind⟩ := ObjectTable.find?_eq_some.mp ho
    have hne : x ≠ id := by
      by_cases hk : o.kind = .thread
      · exact hx (hkind ▸ hk)
      · exact h.ne_of_kind hget hk
    exact .done ((h.note _ _).erase hne) ()

theorem setPartitions (partitions : Std.ExtTreeMap PartitionId Partition compare) :
    Holds id { k with partitions } { k' with partitions } :=
  { h with partitions := rfl }

theorem allocateBlock (partition : PartitionId) (name : String) (placement : Placement)
    (alignment size : UInt32) : Agrees id (k.allocateBlock partition name placement alignment size)
      (k'.allocateBlock partition name placement alignment size) := by
  unfold Kernel.allocateBlock
  rw [h.partitions]
  cases k.partitions[partition]? with
  | none => exact .refuse h _
  | some p =>
    have hnoted := h.noteAll (p.allocateEvents name placement alignment size)
      (p.allocateEvents name placement alignment size)
    dsimp only
    cases p.allocate name placement alignment size with
    | error e => exact .refuse hnoted e
    | ok taken =>
      refine .done ?_ taken.1
      rw [show (k'.noteAll _).partitions = k.partitions from h.partitions]
      exact hnoted.setPartitions _

theorem freeBlock (partition : PartitionId) (block : Block) :
    Agrees id (k.freeBlock partition block) (k'.freeBlock partition block) := by
  unfold Kernel.freeBlock
  rw [h.partitions]
  cases k.partitions[partition]? with
  | none => exact .refuse h _
  | some p =>
    have hnoted := h.noteAll (p.freeEvents block) (p.freeEvents block)
    dsimp only
    cases p.free block with
    | error e => exact .refuse hnoted e
    | ok p' =>
      refine .done ?_ ()
      rw [show (k'.noteAll _).partitions = k.partitions from h.partitions]
      exact hnoted.setPartitions _

theorem freeBlocks (partition : PartitionId) (blocks : List Block) :
    Agrees id (k.freeBlocks partition blocks) (k'.freeBlocks partition blocks) := by
  induction blocks generalizing k k' with
  | nil => exact .done h ()
  | cons b rest ih => exact (h.freeBlock partition b).andThen fun _ _ => ih (h.freeBlock partition b).kernel

end Holds

end Kernel
end GuestKernel
