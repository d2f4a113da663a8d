/-
# Every context and every callback has its thread

A thread gets its context when it starts, and a callback is put on the list of its owner when it is made. Both go when
the thread is deleted, so that none is left over.

| | holds |
| --- | --- |
| `Enrolled` | whoever has a context has been started, and whoever has been started is registered |
| `Seated` | whoever has been started has a context, and every live context is somebody's |
| `Housed` | every callback is on the list of a registered thread |

The first holds in every reachable state. The other two need that a thread is deleted entirely or not at all, and
`Owned` says so: its blocks are where it left them, so that nothing fails half way (`reclaim_leaves`). Apart from that
no operation takes a thread's context or its list away, as only those that delete a thread strip one or bury one
(`sparing_moves`).

Source: specification, 4.2 and 6.
-/

import GuestKernel.Proofs.CallbackLists
import GuestKernel.Proofs.Ownership
import GuestKernel.Proofs.ThreadContexts

namespace GuestKernel

/-! ### Operations that delete no thread -/

/-- Whether the call deletes a thread. -/
def Syscall.buries : Syscall → Bool
  | deleteThread .. | exitDeleteThread .. | terminateDeleteThread .. => true
  | _ => false

/-- Whether the operation deletes a thread. -/
def Operation.buries : Operation → Bool
  | syscall call => call.buries
  | deleteThread _ => true
  | _ => false

theorem Operation.attaches_of_buries {o : Operation} (h : o.buries = true) : o.attaches = true := by
  cases o with
  | syscall call => cases call <;> first | rfl | cases h
  | deleteThread => rfl
  | _ => cases h

/-- What takes no blocks out of a partition, and gives none back, leaves the dead alone. -/
theorem Operation.Permits.not_buries {o : Operation} {k : Kernel} {l : Label} (h : o.Permits k l)
    (ho : o.reserves = false) : ¬ l.Buries := by
  intro hl
  cases l with
  | strip | bury =>
    cases h with
    | touch ht =>
      rcases ht with h | ⟨_, _, -, h⟩ | ⟨_, _, -, h⟩ | ⟨hreserves, -⟩ | ⟨-, h⟩ | ⟨-, h⟩
      · exact h
      · exact h
      · exact h
      · cases ho.symm.trans hreserves
      · exact h
      · exact h
  | _ => exact hl

/-- A thread that has been started keeps its context until it is stripped. -/
theorem Thread.Step.context_of_begun {l : Label} {t t' : Thread} (h : t.Step l t') (hs : t.status.stopped = false)
    (hl : ¬ l.Buries) : t'.context = t.context := by
  cases h with
  | same | joined | arrange | park | wake | die => rfl
  | edit hlife => rw [hlife]
  | launch _ hstopped =>
    rw [hstopped] at hs
    cases hs
  | strip hlabel =>
    subst hlabel
    exact absurd trivial hl

/-- The callbacks of a thread are edited, or go when it is stripped. -/
theorem Thread.Step.callbacks_of_spared {l : Label} {t t' : Thread} (h : t.Step l t') (hl : ¬ l.Buries) :
    t'.callbacks = t.callbacks ∨ l = .edit t t' := by
  cases h with
  | same | joined | arrange | park | wake | launch | die => exact Or.inl rfl
  | edit _ hlabel => exact Or.inr hlabel
  | strip hlabel =>
    subst hlabel
    exact absurd trivial hl

namespace Kernel

variable {k k' : Kernel} {o : Operation} {l : Label} {s s' : Stage} {t t' : Thread} {x : ThreadId}

/-- What the calls do that take or free blocks for objects other than threads: they make an object, or change neither
the schedule nor a thread. -/
def Trades (k : Kernel) (o : Operation) (l : Label) : Prop :=
  (o.Touches l ∧ ¬ l.Schedules ∧ ¬ l.Revises ∧ ¬ l.Buries) ∨
    ∃ x, l = .create x ∧ o.creates? = some x.kind ∧ x.id = k.nextId

theorem trades_of_isPlain (hl : l.IsPlain) : k.Trades o l := by
  refine Or.inl ⟨Or.inl hl.isRoutine, hl.not_schedules, hl.not_revises, ?_⟩
  cases l <;> first | exact id | exact absurd hl id

theorem trades_reserve (ho : o.reserves = true) : k.Trades o .reserve :=
  Or.inl ⟨Or.inr (Or.inr (Or.inr (Or.inl ⟨ho, trivial⟩))), id, id, id⟩

theorem trades_of_erases {call : Syscall} {kind : ObjectKind} {id : ObjectId} (hid : call.deletes? = some (kind, id))
    (hl : l.Erases kind id) : k.Trades (.syscall call) l := by
  refine Or.inl ⟨Or.inr (Or.inr (Or.inl ⟨kind, id, hid, hl⟩)), hl.not_schedules,
    hl.not_revises (Syscall.kind_of_deletes? hid), ?_⟩
  cases l <;> first | exact fun h => h | exact absurd hl fun h => h

/-- The calls that take or free blocks, but for those that delete a thread, make or delete another holder of blocks. -/
theorem trading_moves (k : Kernel) (ho : o.buries = false) (hreserves : o.reserves = true) :
    Moves (k.Trades o) ⟨k, []⟩ ⟨k.after o, []⟩ := by
  have hplain : ∀ l : Label, l.IsPlain → k.Trades o l := fun _ => trades_of_isPlain
  have hreserve : k.Trades o .reserve := trades_reserve hreserves
  cases o with
  | syscall call =>
    have hcreate : ∀ {kind : ObjectKind}, call.creates? = some kind → ∀ x : Object, x.id = k.nextId →
        x.kind = kind → k.Trades (.syscall call) (.create x) := by
      rintro kind hkind x hid rfl
      exact Or.inr ⟨x, rfl, hkind, hid⟩
    cases call with
    | createThread name entry priority stackSize attributes =>
      exact .createThread hplain hreserve (hcreate rfl) name entry priority stackSize attributes
    | createPipe name partition attributes size =>
      exact .createPipe hplain hreserve (hcreate rfl) name partition attributes size
    | deletePipe id => exact .deletePipe hplain hreserve fun _ => trades_of_erases rfl
    | allocateMemory partition name kind size address =>
      exact .allocateMemory hplain hreserve (hcreate rfl) partition name kind size address
    | freeMemory id => exact .freeMemory hplain hreserve fun _ => trades_of_erases rfl
    | deleteThread | exitDeleteThread | terminateDeleteThread => cases ho
    | _ => cases hreserves
  | deleteThread => cases ho
  | _ => cases hreserves

/-- **An operation that deletes no thread strips none and buries none.** -/
theorem sparing_moves (k : Kernel) (hn : k.started.Nodup) (ho : o.buries = false) :
    ∃ L, Moves (fun l => o.Permits k l ∧ ¬ l.Buries) ⟨k, []⟩ ⟨k.after o, L⟩ := by
  cases hreserves : o.reserves with
  | false =>
    obtain ⟨-, L, hmoves, -⟩ := moves_after k o hn
    exact ⟨L, hmoves.mono fun l hl => ⟨hl, hl.not_buries hreserves⟩⟩
  | true =>
    obtain ⟨-, honce⟩ := (trading_moves k ho hreserves).create_once (fun x h => o.not_touches_create x h.1)
      (fun _ h => h.2) (Or.inl rfl)
    refine ⟨[], honce.mono ?_⟩
    rintro l (⟨htouch, hs, hv, hb⟩ | ⟨x, rfl, ⟨hkind, hx⟩, hafter⟩)
    · exact ⟨.touch htouch (fun hl => absurd hl hs) fun hl => absurd hl hv, hb⟩
    · exact ⟨.create (Operation.object?_of_creates? hkind) hx hafter hkind, id⟩

/-- What moves preserve that neither strip nor bury a thread, an operation that deletes none preserves. -/
theorem spared_after {P : Stage → Prop} (h : k.Coherent ∧ k.IdsBelow) (hn : k.started.Nodup)
    (hbound : k.SparesLastId o) (ho : o.buries = false)
    (hP : ∀ l s s', o.Permits k l → ¬ l.Buries → s.kernel.Coherent → l.Fresh s.kernel → Move l s s' → P s → P s')
    (h₀ : P ⟨k, []⟩) : ∃ L, P ⟨k.after o, L⟩ := by
  obtain ⟨L, hmoves⟩ := sparing_moves k hn ho
  exact ⟨L, (preserved_moves hmoves (fun _ hl => hl.1) hbound h (fun l s s' hl => hP l s s' hl.1 hl.2) h₀).2⟩

/-! ### Whoever has a context has been started -/

/-- Threads with contexts have been started, and those that have been started are registered. -/
structure Enrolled (k : Kernel) : Prop where
  listed : ∀ x c, k.contextOf? x = some c → x ∈ k.started
  begun : ∀ x ∈ k.started, ∃ t, k.thread? x = some t ∧ t.status.stopped = false

/-- Whoever is on the list of the started threads was on it, or has just been started. -/
theorem of_mem_started_step (hm : Move l s s') (hx : x ∈ s'.kernel.started) :
    (x ∈ s.kernel.started ∧ l ≠ .bury x) ∨ l = .launch x := by
  obtain ⟨-, heq⟩ | ⟨id, rfl | rfl | rfl⟩ := hm.keeps
  · rw [heq] at hx
    refine Or.inl ⟨hx, ?_⟩
    rintro rfl
    cases hm with
    | @bury k L u =>
      have hfilter : k.started.filter (· != u.id) = k.started := heq
      have hne := (List.mem_filter.mp (hfilter.symm ▸ hx)).2
      simp at hne
  · cases hm with
    | launch =>
      rw [started_launch] at hx
      split at hx
      · exact Or.inl ⟨hx, nofun⟩
      · rcases List.mem_append.mp hx with hx | hx
        · exact Or.inl ⟨hx, nofun⟩
        · exact Or.inr (by rw [List.mem_singleton.mp hx])
  · cases hm with
    | strip => exact Or.inl ⟨hx, nofun⟩
  · cases hm with
    | bury =>
      obtain ⟨hmem, hne⟩ := List.mem_filter.mp hx
      refine Or.inl ⟨hmem, ?_⟩
      rintro ⟨⟩
      simp at hne

/-- **Each move keeps the list of the started threads.** -/
theorem Enrolled.step (h : s.kernel.Enrolled) (hc : s.kernel.Coherent) (hfresh : l.Fresh s.kernel) (hm : Move l s s') :
    s'.kernel.Enrolled where
  listed x c hx := by
    obtain ⟨t', ht', -⟩ := contextOf?_eq_some.mp hx
    refine mem_started_step hm ht' ?_
    exact (held_step hc hm hx).imp (h.listed x c) And.left
  begun x hx := by
    obtain ⟨hmem, hburies⟩ | rfl := of_mem_started_step hm hx
    · obtain ⟨t, ht, hstopped⟩ := h.begun x hmem
      obtain ⟨t', ht'⟩ | ⟨-, hl⟩ := hm.thread_stays hfresh ht
      · refine ⟨t', ht', Bool.eq_false_iff.mpr fun hs => ?_⟩
        obtain ⟨u, hu, hstep⟩ | ⟨hl, -⟩ := hm.thread hc ht'
        · obtain rfl := Option.some.inj (ht.symm.trans hu)
          cases hstopped.symm.trans (hstep.stopped_of_stopped hs)
        · have hnone := hfresh _ hl
          rw [show (Object.thread t').id = x from id_of_thread? ht', ObjectTable.thread?_eq_some.mp ht] at hnone
          cases hnone
      · exact absurd hl hburies
    · cases hm with
      | launch => exact ⟨_, (thread?_launch ..).trans (if_pos rfl), rfl⟩

/-- An operation gives a context to a thread as it starts it. -/
theorem Enrolled.after (h : k.Enrolled) (hc : k.Coherent ∧ k.IdsBelow) (hn : k.started.Nodup)
    (hbound : k.SparesLastId o) : (k.after o).Enrolled := by
  obtain ⟨-, L, hafter, -⟩ := permitted_after (P := fun s => s.kernel.Enrolled) hc hn hbound
    (fun l s s' _ hc hfresh hm hs => hs.step hc hfresh hm) h
  exact hafter

/-! ### Whoever has been started has a context -/

/-- Started threads have contexts, and there are no others. -/
structure Seated (k : Kernel) : Prop where
  seats : ∀ x ∈ k.started, ∃ c, k.contextOf? x = some c
  tenants : ∀ c, (k.contexts.get? c).isSome = true → ∃ x, k.contextOf? x = some c

/-- A context is kept until its thread is stripped or buried. -/
theorem contextOf?_stays (h : s.kernel.Enrolled) (hc : s.kernel.Coherent)
    (hfresh : l.Fresh s.kernel) (hm : Move l s s') (hl : ¬ l.Buries)
    {c : ContextId} (hx : s.kernel.contextOf? x = some c) : s'.kernel.contextOf? x = some c := by
  obtain ⟨t, ht, htc⟩ := contextOf?_eq_some.mp hx
  obtain ⟨u, hu, hstopped⟩ := h.begun x (h.listed x c hx)
  obtain rfl := Option.some.inj (ht.symm.trans hu)
  obtain ⟨t', ht'⟩ | ⟨-, rfl⟩ := hm.thread_stays hfresh ht
  · refine contextOf?_eq_some.mpr ⟨t', ht', ?_⟩
    obtain ⟨u, hu, hstep⟩ | ⟨hcreate, -⟩ := hm.thread hc ht'
    · obtain rfl := Option.some.inj (ht.symm.trans hu)
      exact (hstep.context_of_begun hstopped hl).trans htc
    · have hnone := hfresh _ hcreate
      rw [show (Object.thread t').id = x from id_of_thread? ht', ObjectTable.thread?_eq_some.mp ht] at hnone
      cases hnone
  · exact absurd trivial hl

/-- **Each move that neither strips nor buries a thread keeps contexts and started threads in step.** -/
theorem Seated.step (h : s.kernel.Seated) (he : s.kernel.Enrolled) (hc : s.kernel.Coherent)
    (hfresh : l.Fresh s.kernel) (hm : Move l s s') (hl : ¬ l.Buries) : s'.kernel.Seated := by
  have hstays : ∀ {y c}, s.kernel.contextOf? y = some c → s'.kernel.contextOf? y = some c :=
    contextOf?_stays he hc hfresh hm hl
  have hlaunch : ∀ {y}, l = .launch y → s'.kernel.contextOf? y = some s.kernel.contexts.freshId := by
    rintro y rfl
    cases hm with
    | launch => exact contextOf?_eq_some.mpr ⟨_, (thread?_launch ..).trans (if_pos rfl), rfl⟩
  refine ⟨fun x hx => ?_, fun c hlive => ?_⟩
  · obtain ⟨hmem, -⟩ | hstart := of_mem_started_step hm hx
    · obtain ⟨c, hxc⟩ := h.seats x hmem
      exact ⟨c, hstays hxc⟩
    · exact ⟨_, hlaunch hstart⟩
  · by_cases hstart : ∃ y, l = .launch y
    · obtain ⟨y, rfl⟩ := hstart
      have hy := hlaunch rfl
      cases hm with
      | @launch k L u registers =>
        rw [contexts_launch] at hlive
        have hget : (k.allocateContext u.entry registers).contexts.get? c = _ := Contexts.get?_allocate ..
        rw [hget] at hlive
        split at hlive
        · next heq => exact ⟨u.id, heq ▸ hy⟩
        · obtain ⟨z, hz⟩ := h.tenants c hlive
          exact ⟨z, hstays hz⟩
    · have hbefore := (numbers_step hm fun id hid => hstart ⟨id, hid⟩).2 c hlive
      obtain ⟨z, hz⟩ := h.tenants c hbefore
      exact ⟨z, hstays hz⟩

/-! ### Deleting a thread -/

theorem sameContexts_removeCallbacks (k : Kernel) (ids : List ObjectId) :
    (ids.foldl removeCallback k).contexts = k.contexts ∧ (ids.foldl removeCallback k).started = k.started := by
  induction ids generalizing k with
  | nil => exact ⟨rfl, rfl⟩
  | cons id rest ih =>
    have hone : (k.removeCallback id).contexts = k.contexts ∧ (k.removeCallback id).started = k.started := by
      unfold removeCallback
      obtain heq | ⟨o, -, -, -, heq⟩ := unregister_cases k .callback id <;> rw [heq] <;> exact ⟨rfl, rfl⟩
    rw [List.foldl_cons]
    exact ⟨(ih _).1.trans hone.1, (ih _).2.trans hone.2⟩

/-- A thread that is deleted gives its context back and leaves the list of the started ones. -/
theorem contexts_reclaim (k : Kernel) (t : Thread) (hok : (k.reclaim t).result = .ok ()) :
    (k.reclaim t).kernel.started = k.started.filter (· != t.id) ∧
      ∀ c, (k.reclaim t).kernel.contexts.get? c = if t.context = some c then none else k.contexts.get? c := by
  have hclear := (Quiet.clearStack (k.putThread t.strip) t).toSameObjects
  unfold reclaim at hok ⊢
  dsimp only at hok ⊢
  split at hok
  · cases hok
  next hsome =>
  rw [if_neg hsome]
  generalize ((k.putThread t.strip).clearStack t).config.threadPartition = partition at hok ⊢
  have hfree := hclear.trans (sameObjects_freeBlocks ((k.putThread t.strip).clearStack t) partition
    (t.stack.toList ++ t.localStorage.toList))
  have hcontexts := contexts_stripped k t partition (t.stack.toList ++ t.localStorage.toList)
  generalize ((k.putThread t.strip).clearStack t).freeBlocks partition _ = r at hok hfree hcontexts ⊢
  obtain ⟨e, -, -, herror⟩ | ⟨a, -, heq⟩ := r.kernel_andThen _
  · cases herror.symm.trans hok
  rw [heq] at hok ⊢
  generalize hk₂ : t.callbacks.foldl removeCallback _ = k₂ at hok ⊢
  have hstarted : k₂.started = k.started := by
    rw [← hk₂, (sameContexts_removeCallbacks _ _).2]
    refine Eq.trans ?_ hfree.started
    split <;> rfl
  have hreleased : ∀ c, k₂.contexts.get? c = if t.context = some c then none else k.contexts.get? c := by
    intro c
    rw [← hk₂, (sameContexts_removeCallbacks _ _).1, ← hcontexts]
    split
    · next context hcontext =>
      simp only [hcontext, Option.some.injEq]
      exact Contexts.get?_release ..
    · next hnone =>
      rw [hnone]
      rfl
  obtain hrefused | ⟨o, -, -, -, hdone⟩ := unregister_cases k₂ .thread t.id
  · rw [hrefused] at hok
    cases hok
  · rw [hdone]
    refine ⟨?_, hreleased⟩
    show k₂.started.filter (· != t.id) = _
    rw [hstarted]

/-- **A registered thread is deleted entirely**, with its context and the callbacks on its list. -/
theorem reclaim_leaves (h : k.Owned) (ht : k.thread? t.id = some t) :
    ((k.reclaim t).kernel.nextId = k.nextId ∧
      (∀ y, (k.reclaim t).kernel.thread? y = if t.id = y then none else k.thread? y) ∧
      ∀ y, (k.reclaim t).kernel.objects.callback? y = if y ∈ t.callbacks then none else k.objects.callback? y) ∧
    (k.reclaim t).kernel.started = k.started.filter (· != t.id) ∧
      ∀ c, (k.reclaim t).kernel.contexts.get? c = if t.context = some c then none else k.contexts.get? c := by
  obtain ⟨k', howned, hdone⟩ := reclaim_eq_done h ht
  refine ⟨(reclaim_cases ht).resolve_left fun hobjects => ?_, contexts_reclaim k t (by rw [hdone]; rfl)⟩
  -- A thread that had been stripped would have no block.
  rw [hdone, kernel_done] at hobjects
  have hstripped : k'.thread? t.id = some t.strip := by
    rw [thread?, hobjects]
    exact thread?_putThread_self t.strip
  exact howned.threads t.id t.strip hstripped rfl

/-- The dead give up their contexts and are no longer started. -/
theorem Seated.reclaim (h : k.Seated) (howned : k.Owned) (ht : k.thread? t.id = some t) :
    (k.reclaim t).kernel.Seated := by
  obtain ⟨⟨-, hthread, -⟩, hstarted, hcontexts⟩ := reclaim_leaves howned ht
  have hcontextOf : ∀ {y c}, t.id ≠ y → k.contextOf? y = some c → (k.reclaim t).kernel.contextOf? y = some c := by
    intro y c hy hc
    rw [contextOf?, hthread, if_neg hy]
    exact hc
  refine ⟨fun x hx => ?_, fun c hlive => ?_⟩
  · rw [hstarted] at hx
    obtain ⟨hmem, hne⟩ := List.mem_filter.mp hx
    obtain ⟨c, hc⟩ := h.seats x hmem
    exact ⟨c, hcontextOf (fun heq => bne_iff_ne.mp hne heq.symm) hc⟩
  · rw [hcontexts] at hlive
    split at hlive
    · cases hlive
    · next hc =>
      obtain ⟨x, hx⟩ := h.tenants c hlive
      refine ⟨x, hcontextOf ?_ hx⟩
      rintro rfl
      obtain ⟨u, hu, huc⟩ := contextOf?_eq_some.mp hx
      obtain rfl := Option.some.inj (ht.symm.trans hu)
      exact hc huc

/-- What a thread that exits and a thread that is deleted leave behind, an operation that ends a thread leaves behind. -/
theorem EndsThread.preserves {P : Kernel → Prop} (hends : EndsThread k t k') (ht : k.thread? t.id = some t) (h : P k)
    (hexit : ∀ exitCode, P (k.exit t exitCode))
    (hreclaim : ∀ k₁ u, k₁.thread? u.id = some u → P k₁ → P (k₁.reclaim u).kernel) : P k' := by
  cases hends with
  | refused => exact h
  | exit exitCode => exact hexit exitCode
  | delete exitCode =>
    obtain ⟨u, hu, hd⟩ := thread?_exit ht exitCode
    rw [← id_of_thread? hu, deleteThread_of_dead (thread?_id hu) hd]
    exact hreclaim _ u (thread?_id hu) (hexit exitCode)

theorem Owned.reclaim (h : k.Owned) (ht : k.thread? t.id = some t) : (k.reclaim t).kernel.Owned := by
  obtain ⟨k', howned, hdone⟩ := reclaim_eq_done h ht
  rw [hdone]
  exact howned

theorem Owned.exit (h : k.Owned) (ht : k.thread? t.id = some t) (exitCode : Int32) : (k.exit t exitCode).Owned :=
  h.sameTenure
    (Moves.exit (A := Label.IsRoutine) (fun _ hl => hl.isRoutine) (fun _ => trivial) ht exitCode).sameTenure

/-- An operation that buries no one keeps started threads and contexts together. -/
theorem Seated.spared (h : k.Seated) (he : k.Enrolled) (hc : k.Coherent ∧ k.IdsBelow) (hn : k.started.Nodup)
    (hbound : k.SparesLastId o) (ho : o.buries = false) : (k.after o).Seated := by
  obtain ⟨L, -, hseated⟩ := spared_after (P := fun s => s.kernel.Enrolled ∧ s.kernel.Seated) hc hn hbound ho
    (fun l s s' _ hl hc hfresh hm hs => ⟨hs.1.step hc hfresh hm, hs.2.step hs.1 hc hfresh hm hl⟩) ⟨he, h⟩
  exact hseated

/-- **Every operation keeps contexts and started threads in step.** -/
theorem Seated.after (h : k.Seated) (he : k.Enrolled) (howned : k.Owned) (hc : k.Coherent ∧ k.IdsBelow)
    (hn : k.started.Nodup) (hbound : k.SparesLastId o) : (k.after o).Seated := by
  cases ho : o.buries with
  | false => exact h.spared he hc hn hbound ho
  | true =>
    cases attaches_cases k (Operation.attaches_of_buries ho) with
    | create | delete | check | finish => cases ho
    | idle hidle =>
      rw [hidle]
      exact h
    | ends ht hends =>
      refine (hends.preserves (P := fun k => k.Owned ∧ k.Seated) ht ⟨howned, h⟩ (fun exitCode => ?_)
        fun k₁ u hu h₁ => ⟨h₁.1.reclaim hu, h₁.2.reclaim h₁.1 hu⟩).2
      refine ⟨howned.exit ht exitCode, ?_⟩
      rw [← after_exitThread ht]
      exact h.spared he hc hn (fun hne => absurd (nextId_of_creates? hn rfl) hne) rfl

/-! ### Every callback is on a list -/

/-- Every callback is on the list of its owner, who is registered. -/
def Housed (k : Kernel) : Prop :=
  ∀ id c, k.objects.callback? id = some c → ∃ t, k.thread? c.owner = some t ∧ id ∈ t.callbacks

/-- Callbacks keep their owners, and threads their lists. -/
theorem Housed.keeps (h : k.Housed)
    (hthreads : ∀ x t, k.thread? x = some t → ∃ t', k'.thread? x = some t' ∧ t'.callbacks = t.callbacks)
    (howners : ∀ x, (k'.objects.callback? x).map (·.owner) = (k.objects.callback? x).map (·.owner)) : k'.Housed := by
  intro id c' hc'
  have heq := howners id
  rw [hc', Option.map_some] at heq
  obtain ⟨c, hc, howner⟩ := Option.map_eq_some_iff.mp heq.symm
  obtain ⟨t, ht, hmem⟩ := h id c hc
  obtain ⟨t', ht', hlist⟩ := hthreads c.owner t ht
  exact ⟨t', howner ▸ ht', hlist.symm ▸ hmem⟩

theorem Housed.of_objects (h : k.Housed) (hobjects : k'.objects = k.objects) : k'.Housed := by
  unfold Housed thread?
  rw [hobjects]
  exact h

/-- Storing a thread with the same list. -/
theorem Housed.putThread (h : k.Housed) (ht : k.thread? t.id = some t) (t' : Thread) (hid : t'.id = t.id)
    (hlist : t'.callbacks = t.callbacks) : (k.putThread t').Housed := by
  refine h.keeps (fun x u hu => ?_) fun x => by rw [callback?_putThread ht t' hid]
  rw [thread?_putThread]
  by_cases hx : t'.id = x
  · obtain rfl := Option.some.inj (ht.symm.trans ((hid.symm.trans hx) ▸ hu))
    exact ⟨t', if_pos hx, hlist⟩
  · exact ⟨u, (if_neg hx).trans hu, rfl⟩

/-- **An operation that is not about callbacks leaves the lists alone.** -/
theorem callbacks_spared (hc : k.Coherent ∧ k.IdsBelow) (hn : k.started.Nodup)
    (hbound : k.SparesLastId o) (ho : o.attaches = false)
    (ht : k.thread? x = some t) : ∃ t', (k.after o).thread? x = some t' ∧ t'.callbacks = t.callbacks := by
  have hburies : o.buries = false := Bool.eq_false_iff.mpr fun hb => by
    cases ho.symm.trans (Operation.attaches_of_buries hb)
  refine (spared_after (P := fun s => ∃ t', s.kernel.thread? x = some t' ∧ t'.callbacks = t.callbacks) hc hn hbound
    hburies ?_ ⟨t, ht, rfl⟩).elim fun _ => id
  rintro l s s' hl hspares hc hfresh hm ⟨u, hu, hlist⟩
  obtain ⟨u', hu'⟩ | ⟨-, rfl⟩ := hm.thread_stays hfresh hu
  · refine ⟨u', hu', ?_⟩
    obtain ⟨v, hv, hstep⟩ | ⟨hcreate, -⟩ := hm.thread hc hu'
    · obtain rfl := Option.some.inj (hu.symm.trans hv)
      obtain heq | rfl := hstep.callbacks_of_spared hspares
      · exact heq.trans hlist
      · rcases hl.edit with ⟨-, heq, -⟩ | ⟨hattaches, -⟩
        · exact heq.trans hlist
        · cases ho.symm.trans hattaches
    · have hnone := hfresh _ hcreate
      rw [show (Object.thread u').id = x from id_of_thread? hu', ObjectTable.thread?_eq_some.mp hu] at hnone
      cases hnone
  · exact absurd trivial hspares

theorem Housed.spared (h : k.Housed) (hc : k.Coherent ∧ k.IdsBelow) (hn : k.started.Nodup)
    (hbound : k.SparesLastId o) (ho : o.attaches = false) : (k.after o).Housed :=
  h.keeps (fun _ _ ht => callbacks_spared hc hn hbound ho ht) (owner_after hc hn ho)

/-- A new callback is on the list of its owner. -/
theorem Housed.createCallback (h : k.Housed) (hb : k.IdsBelow) (name : String) (entry commonArgument : UInt32) :
    (k.createCallback name entry commonArgument).kernel.Housed := by
  obtain ⟨e, heq⟩ | ⟨t, -, ht, heq⟩ := createCallback_cases k name entry commonArgument <;> rw [heq]
  · exact h
  generalize hc : ({ id := k.nextId, name, owner := t.id, entry, commonArgument } : Callback) = c
  have hid : c.id = k.nextId := by rw [← hc]
  have howner : c.owner = t.id := by rw [← hc]
  have hne : ∀ {y u}, k.thread? y = some u → c.id ≠ y := by
    rintro y u hu rfl
    exact Nat.lt_irrefl _ (hid ▸ hb.thread_lt hu)
  intro y c₁ hc₁
  have hget : (k.attach t c).objects.callback? y = some c₁ := hc₁
  show ∃ u, (k.attach t c).thread? c₁.owner = some u ∧ y ∈ u.callbacks
  rw [callback?_attach ht] at hget
  split at hget
  · next hy =>
    obtain rfl := Option.some.inj hget
    rw [howner, thread?_attach, if_neg (hne ht), if_pos rfl]
    exact ⟨_, rfl, List.mem_append_right _ (List.mem_singleton.mpr hy.symm)⟩
  · obtain ⟨u, hu, hmem⟩ := h y c₁ hget
    rw [thread?_attach, if_neg (hne hu)]
    split
    · next hx =>
      obtain rfl := Option.some.inj (ht.symm.trans (hx ▸ hu))
      exact ⟨_, rfl, List.mem_append_left _ hmem⟩
    · exact ⟨u, hu, hmem⟩

/-- A deleted callback is on no list. -/
theorem Housed.deleteCallback (h : k.Housed) (id : ObjectId) : (k.deleteCallback id).kernel.Housed := by
  obtain ⟨-, heq⟩ | ⟨c, -, -, hcallback, hthread⟩ := deleteCallback_cases k id
  · rw [heq]
    exact h
  · intro y c₁ hc₁
    rw [hcallback] at hc₁
    split at hc₁
    · cases hc₁
    · next hy =>
      obtain ⟨t, ht, hmem⟩ := h y c₁ hc₁
      rw [hthread, ht]
      refine ⟨_, rfl, ?_⟩
      split
      · exact List.mem_filter.mpr ⟨hmem, bne_iff_ne.mpr fun heq => hy heq.symm⟩
      · exact hmem

theorem Housed.checkCallbacks (h : k.Housed) : k.checkCallbacks.kernel.Housed := by
  obtain ⟨heq, -⟩ | ⟨t, -, ht, -, heq⟩ := checkCallbacks_cases k <;> rw [heq]
  · exact h
  · exact h.putThread ht { t with checksCallbacks := true } rfl rfl

/-- The return from a callback keeps callbacks on lists. -/
theorem Housed.finishCallback (h : k.Housed) (value : Int32) : (k.finishCallback value).kernel.Housed :=
  finishCallback_preserves (fun _ _ h heq => h.of_objects heq) (fun _ id h => h.deleteCallback id)
    (fun _ t h ht => h.putThread ht { t with checksCallbacks := false } rfl rfl) h value

/-- The callbacks on the list of a thread go with it. -/
theorem Housed.reclaim (h : k.Housed) (howned : k.Owned) (ht : k.thread? t.id = some t) :
    (k.reclaim t).kernel.Housed := by
  obtain ⟨⟨-, hthread, hcallback⟩, -⟩ := reclaim_leaves howned ht
  intro id c hc
  rw [hcallback] at hc
  split at hc
  · cases hc
  · next hid =>
    obtain ⟨u, hu, hmem⟩ := h id c hc
    refine ⟨u, ?_, hmem⟩
    rw [hthread, if_neg, hu]
    intro heq
    obtain rfl := Option.some.inj (ht.symm.trans (heq ▸ hu))
    exact hid hmem

/-- **Every operation leaves each callback on the list of its owner.** -/
theorem Housed.after (h : k.Housed) (howned : k.Owned) (hc : k.Coherent ∧ k.IdsBelow)
    (hn : k.started.Nodup) (hbound : k.SparesLastId o) : (k.after o).Housed := by
  cases ho : o.attaches with
  | false => exact h.spared hc hn hbound ho
  | true =>
    cases attaches_cases k ho with
    | create name entry commonArgument => exact h.createCallback hc.2 name entry commonArgument
    | delete id => exact h.deleteCallback id
    | check => exact h.checkCallbacks
    | finish value => exact h.finishCallback value
    | idle hidle =>
      rw [hidle]
      exact h
    | ends ht hends =>
      refine (hends.preserves (P := fun k => k.Owned ∧ k.Housed) ht ⟨howned, h⟩ (fun exitCode => ?_)
        fun k₁ u hu h₁ => ⟨h₁.1.reclaim hu, h₁.2.reclaim h₁.1 hu⟩).2
      refine ⟨howned.exit ht exitCode, ?_⟩
      rw [← after_exitThread ht]
      exact h.spared hc hn (fun hne => absurd (nextId_of_creates? hn rfl) hne) rfl

/-! ### Runs -/

/-- A new kernel has no contexts. -/
theorem enrolled_new (config : KernelConfig) (memory : Memory) : (Kernel.new config memory).Enrolled := by
  obtain ⟨partitions, journal, heq, -⟩ := new_cases config memory
  refine ⟨fun x c hx => ?_, fun x hx => ?_⟩
  · obtain ⟨t, ht, -⟩ := contextOf?_eq_some.mp hx
    rw [thread?_new] at ht
    cases ht
  · rw [heq] at hx
    cases hx

/-- **In every reachable state the threads with contexts have been started**, and the started ones are registered. -/
theorem enrolled_run (config : KernelConfig) (memory : Memory) (operations : List Operation)
    (hids : (Kernel.new config memory).handedOut operations < 2 ^ 32 - 1) :
    ((Kernel.new config memory).run operations).Enrolled := by
  exact (reachable_keeps hids (enrolled_new config memory) fun _ _ hc hn hbound h => h.after hc hn hbound).2

/-- **With partitions below the end of the address space, every started thread has a context and every context and every
callback a thread**, in every reachable state. -/
theorem seated_run {config : KernelConfig} (memory : Memory) (operations : List Operation)
    (hconfig : ∀ c ∈ config.partitions, c.base.toNat + c.size.toNat < 2 ^ 32)
    (hids : (Kernel.new config memory).handedOut operations < 2 ^ 32 - 1) :
    ((Kernel.new config memory).run operations).Seated ∧ ((Kernel.new config memory).run operations).Housed := by
  have hnew : (Kernel.new config memory).Seated ∧ (Kernel.new config memory).Housed := by
    obtain ⟨partitions, journal, heq, -⟩ := new_cases config memory
    refine ⟨⟨fun x hx => ?_, fun c hlive => ?_⟩, fun id c hc => ?_⟩
    · rw [heq] at hx
      cases hx
    · rw [heq, show ({} : Contexts).get? c = none from Std.ExtTreeMap.getElem?_empty] at hlive
      cases hlive
    · rw [callback?_eq_none_of_get? (get?_new config memory id)] at hc
      cases hc
  refine (reachable_keeps (P := fun k => k.Owned ∧ k.Enrolled ∧ k.Seated ∧ k.Housed) hids
    ⟨owned_new hconfig memory, enrolled_new config memory, hnew⟩ ?_).2.2.2
  rintro k o hc hn hbound ⟨howned, he, hseated, hhoused⟩
  exact ⟨howned.after hc hn hbound, he.after hc hn hbound, hseated.after he howned hc hn hbound,
    hhoused.after howned hc hn hbound⟩

end Kernel
end GuestKernel
