/-
# Waiting and waking as moves

`wake` on a thread that waits is, up to writes of guest memory and registers, the update `awaken`: the thread's wait is
over and it is ready unless it is on hold. A call that blocks is a `park` followed by an `enqueue`, and a timeout is a
`detach` followed by a `wake`.

Source: specification, 4.4.
-/

import GuestKernel.Proofs.Moves

namespace GuestKernel

namespace Reply

variable {α β : Type}

@[simp] theorem kernel_map (f : α → β) (r : Reply α) : (r.map f).kernel = r.kernel := rfl

/-- Answers that are translated twice may be translated at once. -/
theorem map_map {γ : Type} (f : α → β) (g : β → γ) (r : Reply α) : (r.map f).map g = r.map fun a => g (f a) := by
  obtain ⟨result, k⟩ := r
  cases result with
  | error e => rfl
  | ok a => rfl

/-- A second call that is made only after a success: the kernel after both. -/
theorem kernel_andThen (r : Reply α) (next : α → Kernel → Reply β) :
    (∃ e, r.result = .error e ∧ (r.andThen next).kernel = r.kernel ∧ (r.andThen next).result = .error e) ∨
      ∃ a, r.result = .ok a ∧ r.andThen next = next a r.kernel := by
  unfold andThen
  cases h : r.result with
  | error e => exact Or.inl ⟨e, rfl, rfl, rfl⟩
  | ok a => exact Or.inr ⟨a, rfl, rfl⟩

end Reply

namespace Kernel

variable {α : Type} {k k' : Kernel} {id : ThreadId} {t : Thread} {w : Wait} {β : Type} {x : ThreadId}
  {e : ThreadId × Wait}

@[simp] theorem kernel_done (k : Kernel) (a : α) : (k.done a).kernel = k := rfl

theorem done_andThen (k : Kernel) (a : α) (next : α → Kernel → Reply β) : (k.done a).andThen next = next a k := rfl

/-- A registered thread has the id it is registered under. -/
theorem id_of_thread? (h : k.thread? id = some t) : t.id = id :=
  ObjectTable.id_of_get? (ObjectTable.thread?_eq_some.mp h)

theorem thread?_id (h : k.thread? id = some t) : k.thread? t.id = some t := by
  rw [id_of_thread? h]
  exact h

theorem thread?_put (o : Object) (x : ThreadId) :
    (k.put o).thread? x = if o.id = x then o.thread? else k.thread? x :=
  ObjectTable.thread?_put o x

theorem thread?_putThread (t : Thread) (x : ThreadId) :
    (k.putThread t).thread? x = if t.id = x then some t else k.thread? x :=
  thread?_put _ x

theorem thread?_putThread_self (t : Thread) : (k.putThread t).thread? t.id = some t :=
  (thread?_putThread t t.id).trans (if_pos rfl)

theorem thread?_putThread_of_ne (t : Thread) (hx : x ≠ t.id) : (k.putThread t).thread? x = k.thread? x :=
  (thread?_putThread t x).trans (if_neg fun h => hx h.symm)

/-- Storing an object that is no thread, where none is, hides no thread. -/
theorem thread?_put_of_kind_ne {o : Object} (o' : Object) (ho : k.objects.get? o.id = some o) (hk : o.kind ≠ .thread)
    (hid : o'.id = o.id) (hk' : o'.kind = o.kind) (x : ThreadId) : (k.put o').thread? x = k.thread? x := by
  rw [thread?_put]
  split
  · next hx =>
    rw [← hx, hid, Object.thread?_eq_none.mpr (hk' ▸ hk), thread?, ObjectTable.thread?_eq_bind, ho,
      Option.bind_some, Object.thread?_eq_none.mpr hk]
  · rfl

/-! ### The ready queue -/

theorem isAlarm_insertEvents (q : ReadyQueue) (id : ThreadId) (priority : UInt32) :
    ∀ e ∈ q.insertEvents id priority, e.isAlarm = false := by
  intro e he
  unfold ReadyQueue.insertEvents at he
  split at he
  · simp at he
  · rw [List.mem_singleton.mp he]; rfl

/-- Scheduling touches nothing but the ready queue and the journal, so quiet changes stay quiet. -/
theorem Quiet.schedule (h : Quiet k k') (id : ThreadId) (priority : UInt32) :
    Quiet (k.schedule id priority) (k'.schedule id priority) := by
  unfold Kernel.schedule
  rw [h.ready]
  split
  · next ready _ =>
    exact
      { config := h.config, objects := h.objects, started := h.started, ready := rfl
        current := h.current, delivering := h.delivering, partitions := h.partitions, clock := h.clock
        contextIds := h.contextIds, contexts := h.contexts, registers := h.registers
        calm := fun e he => by
          rcases List.mem_append.mp he with he | he
          · exact Or.inl (List.mem_append_left _ he)
          · exact (h.calm e he).imp_left (List.mem_append_right _)
        queueings := by
          show (k'.noteAll _).queueings = (k.noteAll _).queueings
          rw [queueings_noteAll, queueings_noteAll, h.queueings] }
  · next e _ =>
    exact
      { config := h.config, objects := h.objects, started := h.started, ready := h.ready
        current := h.current, delivering := h.delivering, partitions := h.partitions, clock := h.clock
        contextIds := h.contextIds, contexts := h.contexts, registers := h.registers
        calm := fun e' he => by
          rcases List.mem_cons.mp he with rfl | he
          · exact Or.inl (List.mem_cons_self ..)
          · exact (h.calm e' he).imp_left (List.mem_cons_of_mem _)
        queueings := h.queueings }

@[simp] theorem objects_schedule (k : Kernel) (id : ThreadId) (priority : UInt32) :
    (k.schedule id priority).objects = k.objects := by
  unfold Kernel.schedule
  split <;> rfl

@[simp] theorem thread?_schedule (k : Kernel) (id : ThreadId) (priority : UInt32) (x : ThreadId) :
    (k.schedule id priority).thread? x = k.thread? x := by
  rw [thread?, objects_schedule, thread?]

@[simp] theorem current_schedule (k : Kernel) (id : ThreadId) (priority : UInt32) :
    (k.schedule id priority).current = k.current := by
  unfold Kernel.schedule
  split <;> rfl

@[simp] theorem delivering_schedule (k : Kernel) (id : ThreadId) (priority : UInt32) :
    (k.schedule id priority).delivering = k.delivering := by
  unfold Kernel.schedule
  split <;> rfl

@[simp] theorem started_schedule (k : Kernel) (id : ThreadId) (priority : UInt32) :
    (k.schedule id priority).started = k.started := by
  unfold Kernel.schedule
  split <;> rfl

@[simp] theorem partitions_schedule (k : Kernel) (id : ThreadId) (priority : UInt32) :
    (k.schedule id priority).partitions = k.partitions := by
  unfold Kernel.schedule
  split <;> rfl

@[simp] theorem config_schedule (k : Kernel) (id : ThreadId) (priority : UInt32) :
    (k.schedule id priority).config = k.config := by
  unfold Kernel.schedule
  split <;> rfl

@[simp] theorem contexts_schedule (k : Kernel) (id : ThreadId) (priority : UInt32) :
    (k.schedule id priority).contexts = k.contexts := by
  unfold Kernel.schedule
  split <;> rfl

/-! ### Waking -/

/-- The kernel in which a thread's wait is over; it is ready unless it is on hold. -/
def awaken (k : Kernel) (t : Thread) (result : Int32) : Kernel :=
  if t.status.suspended then k.putThread (t.unpark result)
  else (k.putThread (t.unpark result)).schedule t.id t.priority

theorem Quiet.writeRemaining (k : Kernel) (id : ThreadId) (w : Wait) : Quiet k (k.writeRemaining id w) := by
  unfold Kernel.writeRemaining
  split
  · exact Quiet.refl k
  · split
    · exact Quiet.refl k
    · split
      · exact Quiet.memory k _
      · exact (Quiet.note k rfl).trans (Quiet.note _ rfl)

theorem wake_of_unknown (h : k.thread? id = none) (result : Int32) :
    k.wake id result = k.note (.unknownThreadWoken id) := by
  unfold wake
  rw [h]

theorem wake_of_idle (h : k.thread? id = some t) (hw : t.wait = none) (result : Int32) :
    k.wake id result = k.note (.idleThreadWoken id) := by
  unfold wake
  simp only [h, hw]

/-- **Waking a thread that waits** is `awaken` up to quiet writes. -/
theorem wake_of_waiting (h : k.thread? id = some t) (hw : t.wait = some w) (result : Int32) :
    Quiet (k.awaken t result) (k.wake id result) := by
  have hid := id_of_thread? h
  unfold wake awaken
  simp only [h, hw, hid]
  -- The writes come between the two updates.
  have hqueue : ∀ k₁ k₂ : Kernel, Quiet k₁ k₂ → Quiet (if t.status.suspended then k₁ else k₁.schedule id t.priority)
      (if t.status.suspended then k₂ else k₂.schedule id t.priority) := by
    intro k₁ k₂ hwrites
    split
    · exact hwrites
    · exact hwrites.schedule id t.priority
  refine Quiet.trans (hqueue _ _ ?_) (Quiet.note _ rfl)
  split
  · exact (Quiet.writeRemaining _ id w).trans (Quiet.setResult _ _ _)
  · exact Quiet.writeRemaining _ id w

/-- Who does not wait is not woken; the journal says so. -/
theorem wake_cases (k : Kernel) (id : ThreadId) (result : Int32) :
    (∃ e, k.wake id result = k.note e ∧ e.misqueued = false ∧ e.queued? = none ∧
      (k.thread? id).bind Thread.wait = none) ∨ ∃ t w, t.id = id ∧ k.thread? t.id = some t ∧ t.wait = some w := by
  cases ht : k.thread? id with
  | none => exact Or.inl ⟨_, wake_of_unknown ht result, rfl, rfl, rfl⟩
  | some t =>
    obtain rfl := id_of_thread? ht
    cases hw : t.wait with
    | none => exact Or.inl ⟨_, wake_of_idle ht hw result, rfl, rfl, hw⟩
    | some w => exact Or.inr ⟨t, w, rfl, ht, hw⟩

theorem thread?_awaken (t : Thread) (result : Int32) (x : ThreadId) :
    (k.awaken t result).thread? x = if t.id = x then some (t.unpark result) else k.thread? x := by
  unfold awaken
  split
  · exact thread?_putThread _ x
  · rw [thread?_schedule]
    exact thread?_putThread _ x

/-- Waking a thread leaves the others alone. -/
theorem thread?_wake_of_ne (hx : x ≠ id) (result : Int32) : (k.wake id result).thread? x = k.thread? x := by
  obtain ⟨e, heq, -⟩ | ⟨t, w, rfl, ht, hw⟩ := wake_cases k id result
  · rw [heq]
    rfl
  · rw [(wake_of_waiting ht hw result).thread?, thread?_awaken, if_neg (Ne.symm hx)]

/-- A thread that does not wait is left alone by any wake. -/
theorem thread?_wake_of_idle (h : k.thread? id = some t) (hw : t.wait = none) (x : ThreadId) (result : Int32) :
    (k.wake x result).thread? id = some t := by
  by_cases hx : id = x
  · subst hx
    rw [wake_of_idle h hw]
    exact h
  · rw [thread?_wake_of_ne hx, h]

/-- Who does not wait is not woken. -/
theorem thread?_wakeAll_of_idle (h : k.thread? id = some t) (hw : t.wait = none) (ids : List ThreadId)
    (result : Int32) : (k.wakeAll ids result).thread? id = some t := by
  unfold wakeAll
  induction ids generalizing k with
  | nil => exact h
  | cons x rest ih => exact ih (thread?_wake_of_idle h hw x result)

/-! ### Parking and timeouts -/

/-- Parking the running thread either fails and changes nothing, or takes it off the processor. -/
theorem beginWait_cases (k : Kernel) (w : Wait) :
    (∃ e, k.beginWait w = k.refuse e) ∨
      ∃ t, k.delivering = none ∧ k.current = some t.id ∧ k.thread? t.id = some t ∧
        k.beginWait w =
          ((k.note (.waitBegun t.id w.kind w.handle)).park t { w with since := k.now }).done t.id := by
  unfold beginWait
  split
  · exact Or.inl ⟨_, rfl⟩
  · next hd =>
    split
    · exact Or.inl ⟨_, rfl⟩
    · next id hc =>
      split
      · exact Or.inl ⟨_, rfl⟩
      · next t ht =>
        have hid := id_of_thread? ht
        subst hid
        exact Or.inr ⟨t, by simpa using hd, hc, ht, rfl⟩

/-- Blocking either fails and changes nothing but the journal, or parks the running thread and queues it. -/
theorem block_cases {ρ : Type} (k : Kernel) (w : Wait) (request : ρ) (queue : Waiter ρ → Object) :
    (∃ k' e, Quiet k k' ∧ Noted k k' ∧ k.block w request queue = k'.refuse e) ∨
      ∃ t timeout, k.delivering = none ∧ k.current = some t.id ∧ k.thread? t.id = some t ∧
        k.block w request queue =
          (((k.note (.waitBegun t.id w.kind w.handle)).park t { w with timeout, since := k.now }).put
            (queue ⟨t.id, t.priority, request⟩)).done .blocked := by
  unfold block
  split
  · next f _ => exact Or.inl ⟨k.note (.faulted f), _, .note k rfl, .note k _, rfl⟩
  · next timeout _ =>
    split
    · exact Or.inl ⟨k, _, .refl k, .refl k, rfl⟩
    · next id hc =>
      split
      · exact Or.inl ⟨k, _, .refl k, .refl k, rfl⟩
      · next t ht =>
        have hid := id_of_thread? ht
        subst hid
        obtain ⟨e, he⟩ | ⟨t', hd, hc', ht', he⟩ := beginWait_cases k { w with timeout } <;> rw [he]
        · exact Or.inl ⟨k, e, .refl k, .refl k, rfl⟩
        · rw [hc, Option.some.injEq] at hc'
          rw [← hc', ht, Option.some.injEq] at ht'
          subst ht'
          exact Or.inr ⟨t, timeout, hd, hc, ht, rfl⟩

theorem thread?_park (t : Thread) (w : Wait) (x : ThreadId) :
    (k.park t w).thread? x = if t.id = x then some (t.park w) else k.thread? x :=
  thread?_putThread _ x

/-- The wait of a thread, if it has one. -/
def waitOf? (k : Kernel) (id : ThreadId) : Option Wait := (k.thread? id).bind (·.wait)

theorem waitOf?_eq_some : k.waitOf? id = some w ↔ ∃ t, k.thread? id = some t ∧ t.wait = some w :=
  Option.bind_eq_some_iff

/-- Leaving a queue changes an object at most by that. -/
theorem detach_cases (k : Kernel) (id : ThreadId) (w : Wait) :
    k.detach id w = k ∨ (∃ e, e.isQuiet = true ∧ k.detach id w = k.note e) ∨
      ∃ o, k.objects.get? w.handle = some o ∧ o.waiting.contains id = true ∧
        w.kind ≠ .sleep ∧ w.kind ≠ .delay ∧ k.detach id w = k.put (o.removeWaiter id) := by
  unfold detach
  split
  · exact Or.inl rfl
  · next hk =>
    split
    · exact Or.inr (Or.inl ⟨_, rfl, rfl⟩)
    · next o ho =>
      split
      · next hc => exact Or.inr (Or.inr ⟨o, ho, hc, fun h => hk (Or.inl h), fun h => hk (Or.inr h), rfl⟩)
      · exact Or.inr (Or.inl ⟨_, rfl, rfl⟩)

/-- Leaving a queue changes no thread but for those joined on it. -/
theorem thread?_detach (k : Kernel) (id : ThreadId) (w : Wait) (x : ThreadId) :
    (k.detach id w).thread? x = k.thread? x ∨
      ∃ t, k.thread? x = some t ∧ (w.kind ≠ .sleep ∧ w.kind ≠ .delay ∧ w.handle = x) ∧
        (k.detach id w).thread? x = some { t with exitWaiters := t.exitWaiters.filter (· != id) } := by
  obtain h | ⟨e, -, h⟩ | ⟨o, ho, -, hsleep, hdelay, h⟩ := detach_cases k id w <;> rw [h]
  · exact Or.inl rfl
  · exact Or.inl rfl
  · have hid := ObjectTable.id_of_get? ho
    rw [thread?_put, Object.id_removeWaiter]
    split
    · next hx =>
      rw [← hx, hid, thread?, ObjectTable.thread?_eq_bind, ho]
      cases o with
      | thread t => exact Or.inr ⟨t, rfl, ⟨hsleep, hdelay, rfl⟩, rfl⟩
      | messagePipe p => exact Or.inl (Object.thread?_eq_none.mpr (by rw [Object.kind_removeWaiter]; simp [Object.kind]))
      | _ => exact Or.inl rfl
    · exact Or.inl rfl

theorem waitOf?_detach (k : Kernel) (id : ThreadId) (w : Wait) (x : ThreadId) :
    (k.detach id w).waitOf? x = k.waitOf? x := by
  unfold waitOf?
  obtain h | ⟨t, ht, -, h⟩ := thread?_detach k id w x <;> rw [h]
  rw [ht]
  rfl

/-- The waits on record are those of the started threads. -/
theorem mem_waits : e ∈ k.waits ↔ e.1 ∈ k.started ∧ k.waitOf? e.1 = some e.2 := by
  unfold waits
  rw [List.mem_filterMap]
  constructor
  · rintro ⟨id, hmem, hid⟩
    split at hid
    · next t ht =>
      obtain ⟨w, hw, rfl⟩ := Option.map_eq_some_iff.mp hid
      exact ⟨hmem, waitOf?_eq_some.mpr ⟨t, ht, hw⟩⟩
    · cases hid
  · rintro ⟨hmem, hw⟩
    obtain ⟨t, ht, hwait⟩ := waitOf?_eq_some.mp hw
    refine ⟨e.1, hmem, ?_⟩
    rw [ht]
    dsimp only
    rw [hwait]
    rfl

/-- What is found for each of some ids, with the id. -/
theorem sublist_map_filterMap {f : α → Option (α × β)} (hf : ∀ a b, f a = some b → b.1 = a) (l : List α) :
    ((l.filterMap f).map (·.1)).Sublist l := by
  induction l with
  | nil => exact List.Sublist.refl _
  | cons a rest ih =>
    rw [List.filterMap_cons]
    split
    · exact ih.cons _
    · next b hb =>
      rw [List.map_cons, hf a b hb]
      exact ih.cons_cons _

/-- They are waits of different threads. -/
theorem nodup_waits (hn : k.started.Nodup) : (k.waits.map (·.1)).Nodup := by
  have hsub : (k.waits.map (·.1)).Sublist k.started := by
    refine sublist_map_filterMap (fun id e he => ?_) k.started
    split at he
    · obtain ⟨-, -, rfl⟩ := Option.map_eq_some_iff.mp he
      rfl
    · cases he
  exact hn.sublist hsub

/-- The waits that are due. -/
theorem mem_overdue : e ∈ k.overdue ↔ e ∈ k.waits ∧ ∃ deadline, e.2.deadline? = some deadline ∧ deadline ≤ k.now := by
  unfold overdue
  rw [List.mem_filter]
  refine and_congr_right fun _ => ?_
  dsimp only
  cases e.2.deadline? with
  | none => simp
  | some deadline => simp

theorem waitOf?_expire_of_ne (hx : x ≠ id) : (k.expire id w).waitOf? x = k.waitOf? x := by
  rw [expire, waitOf?, thread?_wake_of_ne hx]
  exact waitOf?_detach k id w x

end Kernel

namespace Moves

variable {A : Label → Prop} {k : Kernel} {L : List ThreadId} {id : ThreadId} {t : Thread} {w : Wait}

/-- Threads in transit are woken one after another. -/
theorem wakeAll (hA : ∀ l, l.IsPlain → A l) (ids : List ThreadId) (result : Int32) :
    Moves A ⟨k, ids ++ L⟩ ⟨k.wakeAll ids result, L⟩ := by
  induction ids generalizing k with
  | nil => exact .refl _
  | cons id rest ih => exact (routine hA .wake trivial).trans ih

/-- A wait whose time is up: the thread leaves the queue and is woken. -/
theorem expire (hA : ∀ l, l.IsPlain → A l) (hdetach : ∀ id w, A (.detach id w)) (h : k.waitOf? id = some w) :
    Moves A ⟨k, []⟩ ⟨k.expire id w, []⟩ := by
  obtain ⟨t, ht, hw⟩ := Kernel.waitOf?_eq_some.mp h
  have hid := Kernel.id_of_thread? ht
  subst hid
  exact (single (hdetach t.id w) (.detach ht hw)).trans ((note hA rfl).trans (routine hA .wake trivial))

/-- Timeouts end one wait after another; the list of waits was made before, and no wait ends another one. -/
theorem expireAll (hA : ∀ l, l.IsPlain → A l) (hdetach : ∀ id w, A (.detach id w)) (due : List (ThreadId × Wait))
    (hn : (due.map (·.1)).Nodup) (hdue : ∀ x ∈ due, k.waitOf? x.1 = some x.2) :
    Moves A ⟨k, []⟩ ⟨due.foldl (fun k x => k.expire x.1 x.2) k, []⟩ := by
  induction due generalizing k with
  | nil => exact .refl _
  | cons x rest ih =>
    rw [List.map_cons, List.nodup_cons] at hn
    refine (expire hA hdetach (hdue x (List.mem_cons_self ..))).trans (ih hn.2 fun y hy => ?_)
    have hne : y.1 ≠ x.1 := by
      intro hc
      exact hn.1 (hc ▸ List.mem_map_of_mem hy)
    rw [Kernel.waitOf?_expire_of_ne hne]
    exact hdue y (List.mem_cons_of_mem _ hy)

/-- The overdue waits are waits of different threads. -/
theorem expireTimeouts (hA : ∀ l, l.IsPlain → A l) (hdetach : ∀ id w, A (.detach id w)) (hn : k.started.Nodup) :
    Moves A ⟨k, []⟩ ⟨k.expireTimeouts.2, []⟩ := by
  have hover : k.overdue.Sublist k.waits := List.filter_sublist
  exact expireAll hA hdetach k.overdue ((Kernel.nodup_waits hn).sublist (hover.map _))
    fun e he => (Kernel.mem_waits.mp (hover.subset he)).2

/-- What a call does that may block: it goes through by moves of `A`, or it does nothing but park the running thread,
which enters a queue or sleeps. -/
inductive Blocks (A : Label → Prop) (k : Kernel) : Kernel → Prop where
  | through {k' : Kernel} (h : Moves A ⟨k, []⟩ ⟨k', []⟩) : Blocks A k k'
  | parks {k' : Kernel} {t : Thread} {w : Wait} {e : Event} {l : Label} (hd : k.delivering = none)
      (hc : k.current = some t.id) (ht : k.thread? t.id = some t) (he : e.isQuiet = true) (hl : A l)
      (hm : Move l ⟨(k.note e).park t w, [t.id]⟩ ⟨k', []⟩) (hs : l.Settles) : Blocks A k k'

theorem Blocks.refl (A : Label → Prop) (k : Kernel) : Blocks A k k := .through (.refl _)

/-- What a call does that may block, as moves. -/
theorem Blocks.moves {k' : Kernel} (h : Blocks A k k') (hA : ∀ l, l.IsPlain → A l)
    (hpark : ∀ id w, k.current = some id → A (.park id w)) : Moves A ⟨k, []⟩ ⟨k', []⟩ := by
  cases h with
  | through h => exact h
  | parks hd hc ht he hl hm =>
    exact (note hA he).trans (.step (hpark _ _ hc) (.park hd hc ht) (single hl hm))

/-- Blocking on an object other than a thread: the running thread is parked and queued, or nothing happens. -/
theorem block {ρ : Type} {o : Object} {request : ρ} {queue : Waiter ρ → Object} (hA : ∀ l, l.IsPlain → A l)
    (henqueue : ∀ id priority, A (.enqueue o (queue ⟨id, priority, request⟩)))
    (ho : k.objects.get? o.id = some o) (hkind : o.kind ≠ .thread)
    (hq : ∀ id priority timeout since, k.current = some id →
      o.Enqueues id priority { w with timeout, since } (queue ⟨id, priority, request⟩)) :
    Blocks A k (k.block w request queue).kernel := by
  obtain ⟨k', e, hquiet, -, h⟩ | ⟨t, timeout, hd, hc, ht, h⟩ := Kernel.block_cases k w request queue <;> rw [h]
  · exact .through (quiet hA hquiet)
  · have hne : t.id ≠ o.id := by
      intro hto
      rw [hto] at ht
      rw [ObjectTable.thread?_eq_some.mp ht, Option.some.injEq] at ho
      exact hkind (ho ▸ rfl)
    let w' : Wait := { w with timeout, since := k.now }
    refine .parks (w := w') (e := .waitBegun t.id w.kind w.handle) hd hc ht rfl (henqueue t.id t.priority)
      (Move.enqueue (t := t.park w') ?_ ?_ rfl (hq t.id t.priority timeout k.now hc) hd) trivial
    · exact (ObjectTable.get?_put ..).trans ((if_neg hne).trans ho)
    · exact (Kernel.thread?_park t w' t.id).trans (if_pos rfl)

end Moves
end GuestKernel
