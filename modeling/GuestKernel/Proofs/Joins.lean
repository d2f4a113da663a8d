/-
# Joined threads

A thread that waits for the end of another one stands in that thread's queue (`joined_run`). Of all kinds of waits this
is the one whose two records always agree: a failed cancel, which strands the waiters of an object, leaves those of
threads alone.

So when a thread ends and wakes its queue, all that joined it go on, with the result 0 in the register `v0` of their
contexts, and this is so whether the thread is deleted after that or not (`Released`).

Source: specification, 4.2 and 8.
-/

import GuestKernel.Proofs.FailedCalls
import GuestKernel.Proofs.QueuePlaces
import GuestKernel.Proofs.ThreadContexts

namespace GuestKernel

/-- Whoever waits for the end of a thread stands in its queue and is not that thread, unless in transit. -/
def Joins (queues : ObjectId → List (ThreadId × Demand)) (waits : ThreadId → Option Wait) (L : List ThreadId) : Prop :=
  ∀ id w, waits id = some w → w.kind = .join → id ∉ L → id ≠ w.handle ∧ id ∈ (queues w.handle).map (·.1)

namespace Joins

variable {queues queues' : ObjectId → List (ThreadId × Demand)} {waits waits' : ThreadId → Option Wait}
  {L L' : List ThreadId} {id : ThreadId} {w : Wait} {d : Demand}

theorem mono (h : Joins queues waits L) (hL : L ⊆ L') : Joins queues waits L' :=
  fun id w hw hkind hid => h id w hw hkind fun hmem => hid (hL hmem)

/-- Entries leave the queues of an object. -/
theorem release (h : Joins queues waits L) (x : ObjectId) (gone : List (ThreadId × Demand))
    (hx : (queues x).Perm (gone ++ queues' x)) (hframe : ∀ y, y ≠ x → queues' y = queues y) :
    Joins queues' waits (gone.map (·.1) ++ L) := by
  intro id w hw hkind hid
  rw [List.mem_append, not_or] at hid
  obtain ⟨hne, hmem⟩ := h id w hw hkind hid.2
  refine ⟨hne, ?_⟩
  by_cases hhandle : w.handle = x
  · rw [hhandle] at hmem ⊢
    have hsplit := (hx.map (·.1)).mem_iff.mp hmem
    rw [List.map_append, List.mem_append] at hsplit
    exact hsplit.resolve_left hid.1
  · rw [hframe _ hhandle]
    exact hmem

/-- A parked thread enters the queue of the object that it waits on. -/
theorem enter (h : Joins queues waits [id]) (hw : waits id = some w) (hne : id ≠ w.handle)
    (hx : (queues' w.handle).Perm ((id, d) :: queues w.handle)) (hframe : ∀ y, y ≠ w.handle → queues' y = queues y) :
    Joins queues' waits [] := by
  have hmap : ((queues' w.handle).map (·.1)).Perm (id :: (queues w.handle).map (·.1)) := hx.map (·.1)
  intro y v hv hkind _
  by_cases hy : y = id
  · subst hy
    obtain rfl := Option.some.inj (hw.symm.trans hv)
    exact ⟨hne, hmap.mem_iff.mpr (List.mem_cons_self ..)⟩
  · obtain ⟨hne', hmem⟩ := h y v hv hkind fun hmem => hy (List.mem_singleton.mp hmem)
    refine ⟨hne', ?_⟩
    by_cases hhandle : v.handle = w.handle
    · rw [hhandle] at hmem ⊢
      exact hmap.mem_iff.mpr (List.mem_cons_of_mem _ hmem)
    · rw [hframe _ hhandle]
      exact hmem

/-- The wait of one thread begins or ends, and the thread is in transit. -/
theorem begin (h : Joins queues waits L) (hframe : ∀ y, y ≠ id → waits' y = waits y) :
    Joins queues waits' (id :: L) := by
  intro y w hw hkind hy
  rw [List.mem_cons, not_or] at hy
  rw [hframe y hy.1] at hw
  exact h y w hw hkind hy.2

/-- Who waits for the end of no thread need not stand in a queue. -/
theorem leave (h : Joins queues waits (id :: L)) (hno : ∀ w, waits id = some w → w.kind ≠ .join) :
    Joins queues waits L := by
  intro y w hw hkind hy
  refine h y w hw hkind fun hmem => ?_
  rcases List.mem_cons.mp hmem with rfl | hmem
  · exact hno w hw hkind
  · exact hy hmem

end Joins

namespace Kernel

variable {k k' : Kernel} {L : List ThreadId} {id : ThreadId} {t : Thread} {w : Wait} {x : ObjectId}

/-- Whoever waits for the end of a thread stands in its queue, up to the threads in transit. -/
def Joined (k : Kernel) (L : List ThreadId) : Prop := Joins k.queues k.waitOf? L

namespace Joined

theorem sameRecords (h : k.Joined L) (hs : SameRecords k k') : k'.Joined L := by
  unfold Joined
  rw [funext hs.queues, funext hs.waits]
  exact h

theorem release {gone : List (ThreadId × Demand)} (h : k.Joined L) (hr : Releases k k' x gone) :
    k'.Joined (gone.map (·.1) ++ L) := by
  unfold Joined
  rw [funext hr.waits]
  exact Joins.release h x gone hr.entries hr.frame

theorem enqueue {o o' : Object} (h : k.Joined [t.id]) (ho : k.objects.get? o.id = some o)
    (ht : k.thread? t.id = some t) (hw : t.wait = some w) (hq : o.Enqueues t.id t.priority w o') :
    (k.put o').Joined [] := by
  obtain ⟨d, -, he⟩ := enters_enqueue ho hq
  have hne := ne_of_enqueues ho ht hq
  unfold Joined
  rw [funext he.waits]
  exact Joins.enter h (waitOf?_eq_some.mpr ⟨t, ht, hw⟩) hne he.entries he.frame

/-- A thread leaves the queue that its wait says, if it stands there. -/
theorem detach (h : k.Joined L) (honce : ((k.queues w.handle).map (·.1)).Nodup) :
    (k.detach id w).Joined (id :: L) := by
  obtain ⟨-, hs⟩ | ⟨gone, hr, hoff⟩ := detach_records honce id
  · exact Joins.mono (h.sameRecords hs) (List.subset_cons_self id L)
  · refine Joins.mono (h.release hr) fun y hy => ?_
    rcases List.mem_append.mp hy with hy | hy
    · rw [List.mem_singleton.mp (hoff.mem_iff.mpr hy)]
      exact List.mem_cons_self ..
    · exact List.mem_cons_of_mem _ hy

/-- A thread that is woken is no longer in transit. -/
theorem wake (h : k.Joined (id :: L)) (result : Int32) : (k.wake id result).Joined L := by
  obtain ⟨e, heq, -, -, hnone⟩ | ⟨t, w, rfl, ht, hw⟩ := wake_cases k id result
  · have hidle : k.Joined L := Joins.leave h fun w hw => absurd (hnone.symm.trans hw) (by simp)
    rw [heq]
    exact hidle.sameRecords (.of_objects rfl)
  · have hr := rewaits_wake ht hw result
    unfold Joined
    rw [funext hr.queues]
    have hover : Joins k.queues (k.wake t.id result).waitOf? (t.id :: L) :=
      Joins.mono (Joins.begin h hr.frame) (List.cons_subset.mpr ⟨List.mem_cons_self .., List.Subset.refl _⟩)
    exact hover.leave fun v hv => absurd (hr.wait_eq.symm.trans hv) (by simp)

/-- A thread dies, and those that joined it are let go. -/
theorem retire (h : k.Joined []) (hplaced : k.Placed []) (ht : k.thread? t.id = some t) (exitCode : Int32) :
    (k.retire t exitCode).Joined t.exitWaiters := by
  have hfell : (k.fell t exitCode).Joined t.exitWaiters := by
    intro id w hw hkind hid
    rw [waitOf?_fell] at hw
    split at hw
    · cases hw
    · obtain ⟨hne, hmem⟩ := h id w hw hkind List.not_mem_nil
      refine ⟨hne, ?_⟩
      rw [queues_fell]
      split
      · next hx =>
        rw [← hx, queues_of_thread? ht] at hmem
        exact absurd hmem hid
      · exact hmem
  have honce : ∀ y, (((k.fell t exitCode).queues y).map (·.1)).Nodup := by
    intro y
    rw [queues_fell]
    split
    · exact List.nodup_nil
    · exact Places.once hplaced y
  obtain ⟨-, heq⟩ | ⟨w, -, heq⟩ := retire_eq k t exitCode <;> rw [heq]
  · exact hfell
  · have hdetach : ((k.fell t exitCode).detach t.id w).Joined (t.id :: t.exitWaiters) := hfell.detach (honce w.handle)
    refine Joins.leave hdetach fun v hv => ?_
    rw [waitOf?_detach, waitOf?_fell, if_pos rfl] at hv
    cases hv

/-- **Each move keeps those that joined a thread in its queue.** -/
theorem step {l : Label} {s s' : Stage} (h : s.kernel.Joined s.transit) (hc : s.kernel.Coherent)
    (hplaced : s.kernel.Placed s.transit) (hnobody : s.kernel.Unjoined) (hfresh : l.Fresh s.kernel) (hm : Move l s s') :
    s'.kernel.Joined s'.transit := by
  have hsame := hm.sameRecords hfresh
  cases hm with
  | @erase k o ho hkind =>
    have hr : Releases k { k with objects := k.objects.erase o.id } o.id o.entries :=
      releases_erase ho (waitOf?_of_kind_ne ho hkind) rfl
    have herase := h.release hr
    rwa [Object.map_entries, List.append_nil] at herase
  | change ho hchange =>
    obtain ⟨gone, hr, hoff⟩ := releases_change ho hchange
    refine Joins.mono (h.release hr) fun y hy => ?_
    rw [List.append_nil] at hy
    exact hoff.mem_iff.mpr hy
  | enqueue ho ht hw hq => exact h.enqueue ho ht hw hq
  | @park k t w hd hcur ht =>
    have hr := rewaits_park ht w
    show Joins _ _ _
    rw [funext hr.queues]
    exact Joins.begin h hr.frame
  | @doze k t w ht hw hkind =>
    refine Joins.leave h fun v hv hjoin => ?_
    obtain ⟨u, hu, hwait⟩ := waitOf?_eq_some.mp hv
    obtain rfl := Option.some.inj (ht.symm.trans hu)
    obtain rfl := Option.some.inj (hw.symm.trans hwait)
    rcases hkind with hkind | hkind <;> exact absurd (hkind.symm.trans hjoin) (by decide)
  | @detach k t w => exact h.detach (Places.once hplaced w.handle)
  | wake => exact h.wake _
  | retire ht => exact h.retire hplaced ht _
  | @bury k L t ht hd =>
    -- A dead thread has no queue that could be lost with it.
    have hempty : (Object.thread t).entries = [] := by
      rw [← List.map_eq_nil_iff, Object.map_entries]
      refine hnobody t.id t ht ?_
      show (t.status.stopped || t.status.dead) = true
      rw [hd, Bool.or_true]
    have hr : Releases k { k with objects := k.objects.erase t.id, started := k.started.filter (· != t.id) } t.id [] :=
      hempty ▸ releases_bury hc ht hd rfl
    exact h.release hr
  | _ => exact h.sameRecords (hsame trivial)

/-- A failed cancel strands nobody who waits for the end of a thread. -/
theorem failedCancel {call : Syscall} (h : k.Joined []) (hplaced : k.Placed []) (hcall : call.isCancel = true)
    {e : KernelError} (he : (k.perform call).result = .error e) : (k.perform call).kernel.Joined [] := by
  obtain heq | ⟨o, o', f, memory, ho, hr, -, heq⟩ := strands_perform hcall e he <;> rw [heq]
  · exact h
  intro id w hw hkind hid
  have hwait : k.waitOf? id = some w := by
    rw [← hw]
    exact congrArg (·.bind Thread.wait) (thread?_put_of_kind_ne o' ho hr.kind_ne hr.id_eq hr.kind_eq id).symm
  obtain ⟨hne, hmem⟩ := h id w hwait hkind hid
  refine ⟨hne, ?_⟩
  have hqueues : ({ (k.put o').note (.faulted f) with memory } : Kernel).queues w.handle =
      if o'.id = w.handle then o'.entries else k.queues w.handle := queues_put o' w.handle
  rw [hqueues]
  split
  · next hx =>
    -- The object that was reset is no thread.
    exfalso
    rw [← hx, hr.id_eq, queues_of_get? ho] at hmem
    obtain ⟨entry, hentry, rfl⟩ := List.mem_map.mp hmem
    obtain ⟨v, hv, -, hasks⟩ := Places.entry hplaced o.id entry (queues_of_get? ho ▸ hentry)
    obtain rfl := Option.some.inj (hwait.symm.trans hv)
    have hwaitKind := Object.waitKind?_eq hentry hasks
    rw [hkind] at hwaitKind
    cases o with
    | thread => exact hr.kind_ne rfl
    | _ => cases hwaitKind
  · exact hmem

end Joined

/-- **Whoever waits for the end of a thread stands in its queue in every reachable state**, as long as ids have not run
out. -/
theorem joined_run (config : KernelConfig) (memory : Memory) (operations : List Operation)
    (h : (Kernel.new config memory).handedOut operations < 2 ^ 32 - 1) :
    ((Kernel.new config memory).run operations).Joined [] := by
  refine (reachable_keeps (P := fun k => k.Placed [] ∧ k.Unjoined ∧ k.Joined []) h
    ⟨placed_new config memory, fun x t ht => ?_, fun x w hw => ?_⟩ ?_).2.2.2
  · rw [thread?_new] at ht
    cases ht
  · rw [waitOf?, thread?_new] at hw
    cases hw
  · rintro k o hc hn hbound ⟨hplaced, hnobody, hjoined⟩
    obtain ⟨-, L, ⟨hplaced', hnobody', hjoined'⟩, hL⟩ := preserved_after
      (P := fun s => s.kernel.Placed s.transit ∧ s.kernel.Unjoined ∧ s.kernel.Joined s.transit) hc hn hbound
      (fun l s s' hc hfresh hm hs =>
        ⟨hs.1.step hc hfresh hm, hs.2.1.step hc hm, hs.2.2.step hc hs.1 hs.2.1 hfresh hm⟩)
      ⟨hplaced, hnobody, hjoined⟩
    refine ⟨hplaced'.mono (List.nil_subset L), hnobody', ?_⟩
    cases hfails : k.failsCancel o with
    | false => exact hL hfails ▸ hjoined'
    | true =>
      cases o with
      | syscall call =>
        obtain ⟨hcall, hfailed⟩ := Bool.and_eq_true_iff.mp hfails
        cases hr : (k.perform call).result with
        | ok a =>
          rw [hr] at hfailed
          cases hfailed
        | error e => exact hjoined.failedCancel hplaced hcall hr
      | _ => cases hfails

/-! ### The end of a thread -/

variable {u : Thread} {c : ContextId}

/-- The wait that a thread was in is over with the result 0, which is in `v0` of the thread's context. -/
def Released (k : Kernel) (u : Thread) : Prop :=
  ∃ u', k.thread? u.id = some u' ∧ u'.wait = none ∧ u'.wakeResult = 0 ∧ u'.status = u.status.unpark ∧
    u'.context = u.context ∧ ∀ c, u.context = some c → k.contexts.register c Register.v0 = 0

/-- A 0 written to `v0` of one context leaves a 0 there in another. -/
theorem register_setRegister_zero {contexts : Contexts} {c' : ContextId}
    (h : c' = c ∨ contexts.register c' Register.v0 = 0) :
    (contexts.setRegister c Register.v0 0).register c' Register.v0 = 0 := by
  by_cases hc : c' = c
  · subst hc
    cases hget : contexts.get? c' with
    | none =>
      rw [Contexts.setRegister_of_dead hget]
      unfold Contexts.register
      rw [hget]
    | some context =>
      refine (Contexts.register_setRegister_self ?_ (by decide) _ _).trans (if_pos rfl)
      rw [hget]
      rfl
  · rw [Contexts.register_setRegister_of_ne hc]
    exact h.resolve_left hc

theorem register_wake_zero (h : k.contexts.register c Register.v0 = 0) (id : ThreadId) :
    (k.wake id 0).contexts.register c Register.v0 = 0 := by
  obtain ⟨e, heq, -⟩ | ⟨t, w, rfl, ht, hw⟩ := wake_cases k id 0
  · rw [heq]
    exact h
  · rw [contexts_wake ht hw]
    cases t.context with
    | none => exact h
    | some c' => exact register_setRegister_zero (Or.inr h)

/-- Who is woken with the result 0 finds it in `v0`. -/
theorem register_wake_self (hu : k.thread? id = some u) (hw : u.wait = some w) (hc : u.context = some c) :
    (k.wake id 0).contexts.register c Register.v0 = 0 := by
  rw [contexts_wake hu hw, hc]
  exact register_setRegister_zero (Or.inl rfl)

theorem register_wakeAll_zero (h : k.contexts.register c Register.v0 = 0) (ids : List ThreadId) :
    (k.wakeAll ids 0).contexts.register c Register.v0 = 0 := by
  unfold wakeAll
  induction ids generalizing k with
  | nil => exact h
  | cons id rest ih => exact ih (register_wake_zero h id)

/-- All that are woken with the result 0 find it in `v0`. -/
theorem register_wakeAll_of_mem {ids : List ThreadId} (hid : id ∈ ids) (hu : k.thread? id = some u)
    (hw : u.wait = some w) (hc : u.context = some c) : (k.wakeAll ids 0).contexts.register c Register.v0 = 0 := by
  induction ids generalizing k with
  | nil => cases hid
  | cons first rest ih =>
    show ((k.wake first 0).wakeAll rest 0).contexts.register c Register.v0 = 0
    by_cases hfirst : id = first
    · subst hfirst
      exact register_wakeAll_zero (register_wake_self hu hw hc) rest
    · refine ih ((List.mem_cons.mp hid).resolve_left hfirst) ?_
      rw [thread?_wake_of_ne hfirst, hu]

/-- **Whoever stands in the queue of a thread that ends goes on.** -/
theorem released_exit (hd : t.status.dead = false) (hu : k.thread? u.id = some u) (hw : u.wait = some w)
    (hmem : u.id ∈ t.exitWaiters) (hne : u.id ≠ t.id) (exitCode : Int32) : (k.exit t exitCode).Released u := by
  obtain ⟨exitWaiters, hu'⟩ := thread?_retire_of_ne hu hne exitCode
  unfold exit
  rw [if_neg (by rw [hd]; decide)]
  replace hu' : ((k.retire t exitCode).note (.threadExited t.name t.id exitCode)).thread? u.id =
      some { u with exitWaiters } := hu'
  refine ⟨({ u with exitWaiters } : Thread).unpark 0, ?_, rfl, rfl, rfl, rfl, fun c hc => ?_⟩
  · rw [thread?_wakeAll, if_pos hmem, hu', Option.map_some]
    exact congrArg some (Thread.woken_of_waiting (t := { u with exitWaiters }) hw 0)
  · exact register_wakeAll_of_mem hmem hu' hw hc

/-- A thread stays as it is, and so does every 0 in a register `v0`. -/
def Spares (k k' : Kernel) (x : ThreadId) : Prop :=
  k'.thread? x = k.thread? x ∧
    ∀ c, k.contexts.register c Register.v0 = 0 → k'.contexts.register c Register.v0 = 0

theorem Spares.trans {k₁ k₂ k₃ : Kernel} (h : Spares k₁ k₂ x) (h' : Spares k₂ k₃ x) : Spares k₁ k₃ x :=
  ⟨h'.1.trans h.1, fun c hc => h'.2 c (h.2 c hc)⟩

theorem Spares.of_contexts (hthread : k'.thread? x = k.thread? x) (hcontexts : k'.contexts = k.contexts) :
    Spares k k' x :=
  ⟨hthread, fun c hc => by rw [hcontexts]; exact hc⟩

theorem Released.spares (h : k.Released u) (hs : Spares k k' u.id) : k'.Released u := by
  obtain ⟨u', hu', hwait, hresult, hstatus, hcontext, hzero⟩ := h
  exact ⟨u', hs.1.trans hu', hwait, hresult, hstatus, hcontext, fun c hc => hs.2 c (hzero c hc)⟩

theorem spares_releaseContext (k : Kernel) (c : ContextId) : Spares k (k.releaseContext c) x := by
  refine ⟨rfl, fun c' hzero => ?_⟩
  show (k.contexts.release c).register c' Register.v0 = 0
  unfold Contexts.register at hzero ⊢
  rw [Contexts.get?_release]
  by_cases hc : c = c'
  · rw [if_pos hc]
  · rw [if_neg hc]
    exact hzero

theorem spares_removeCallbacks (k : Kernel) (ids : List ObjectId) : Spares k (ids.foldl removeCallback k) x := by
  induction ids generalizing k with
  | nil => exact .of_contexts rfl rfl
  | cons id rest ih =>
    refine Spares.trans (.of_contexts (thread?_removeCallback k id x) ?_) (ih (k.removeCallback id))
    unfold removeCallback
    obtain heq | ⟨o, -, -, -, heq⟩ := unregister_cases k .callback id <;> rw [heq] <;> rfl

/-- Deleting a thread spares the others. -/
theorem spares_reclaim (k : Kernel) (t : Thread) (hx : x ≠ t.id) : Spares k (k.reclaim t).kernel x := by
  have hclear : Spares k ((k.putThread t.strip).clearStack t) x := by
    refine .of_contexts ?_ (contexts_clearStack (k.putThread t.strip) t)
    exact ((Quiet.clearStack (k.putThread t.strip) t).thread? x).trans (thread?_putThread_of_ne t.strip hx)
  unfold reclaim
  dsimp only
  split
  · exact hclear
  generalize ((k.putThread t.strip).clearStack t).config.threadPartition = partition
  have hfree : Spares k (((k.putThread t.strip).clearStack t).freeBlocks partition
      (t.stack.toList ++ t.localStorage.toList)).kernel x :=
    .of_contexts (((sameObjects_freeBlocks _ partition _).thread? x).trans hclear.1) (contexts_stripped k t partition _)
  generalize ((k.putThread t.strip).clearStack t).freeBlocks partition _ = r at hfree
  obtain ⟨e, -, heq, -⟩ | ⟨a, -, heq⟩ := r.kernel_andThen _ <;> rw [heq]
  · exact hfree
  refine hfree.trans ?_
  generalize r.kernel = k₁
  generalize hk₂ : t.callbacks.foldl removeCallback _ = k₂
  have hcallbacks : Spares k₁ k₂ x := by
    rw [← hk₂]
    refine Spares.trans ?_ (spares_removeCallbacks _ t.callbacks)
    split
    · next context _ => exact spares_releaseContext k₁ context
    · exact .of_contexts rfl rfl
  refine hcallbacks.trans ?_
  obtain heq | ⟨o, -, -, -, heq⟩ := unregister_cases k₂ .thread t.id <;> rw [heq]
  · exact .of_contexts rfl rfl
  · refine .of_contexts ?_ rfl
    show (k₂.objects.erase t.id).thread? x = k₂.thread? x
    rw [ObjectTable.thread?_erase, if_neg hx.symm]
    rfl

/-- Deleting a dead thread does not end it again. -/
theorem deleteThread_of_dead (ht : k.thread? t.id = some t) (hd : t.status.dead = true) :
    k.deleteThread t.id = k.reclaim t := by
  unfold deleteThread exit
  rw [ht]
  dsimp only
  rw [if_pos hd, ht]

/-- Deleting a thread ends it first. -/
theorem deleteThread_exit (ht : k.thread? t.id = some t) : k.deleteThread t.id = (k.exit t 0).deleteThread t.id := by
  obtain ⟨t', ht', hd⟩ := thread?_exit ht 0
  have hid : t'.id = t.id := id_of_thread? ht'
  have hdead := deleteThread_of_dead (thread?_id ht') hd
  rw [hid] at hdead
  rw [hdead]
  unfold deleteThread
  rw [ht]
  dsimp only
  rw [ht']

theorem exitThread_eq (ht : k.thread? t.id = some t) (exitCode : Int32) :
    k.exitThread t.id exitCode = (k.exit t exitCode).done () := by
  unfold exitThread
  rw [ht]

theorem exitCurrent_eq (hc : k.current = some t.id) (ht : k.thread? t.id = some t) (exitCode : Int32) :
    k.exitCurrent exitCode = (k.exit t exitCode).done t.id := by
  unfold exitCurrent
  rw [hc]
  dsimp only
  rw [exitThread_eq ht]
  rfl

/-- A terminated thread ends like one that exits, with a status of its own. -/
theorem terminateThread_cases (ht : k.thread? t.id = some t) : (∃ e, k.terminateThread t.id = k.refuse e) ∨
    k.terminateThread t.id = (k.exit t terminatedStatus).done () := by
  unfold terminateThread
  split
  · exact Or.inl ⟨_, rfl⟩
  · rw [ht]
    dsimp only
    split
    · exact Or.inl ⟨_, rfl⟩
    · exact Or.inr rfl

/-- Ending a thread, and perhaps deleting it. -/
inductive EndsThread (k : Kernel) (t : Thread) : Kernel → Prop where
  | refused : EndsThread k t k
  | exit (exitCode : Int32) : EndsThread k t (k.exit t exitCode)
  | delete (exitCode : Int32) : EndsThread k t ((k.exit t exitCode).deleteThread t.id).kernel

theorem endsThread_deleteThread (ht : k.thread? t.id = some t) : EndsThread k t (k.deleteThread t.id).kernel := by
  rw [deleteThread_exit ht]
  exact .delete 0

/-- A call that ends a thread does nothing else, but perhaps delete it. -/
theorem endsThread_perform {call : Syscall} (ht : k.thread? t.id = some t) (hcall : call.ends? k = some t.id) :
    EndsThread k t (k.perform call).kernel := by
  have hother : (∃ e, k.onOther t.id terminateThread = k.refuse e) ∨
      k.onOther t.id terminateThread = (k.exit t terminatedStatus).done () := by
    unfold onOther
    split
    · exact Or.inl ⟨_, rfl⟩
    · exact terminateThread_cases ht
  cases call with
  | exitThread exitCode =>
    show EndsThread k t (k.exitCurrent exitCode).kernel
    rw [exitCurrent_eq hcall ht]
    exact .exit exitCode
  | exitDeleteThread exitCode =>
    show EndsThread k t ((k.exitCurrent exitCode).andThen fun id k => k.deleteThread id).kernel
    rw [exitCurrent_eq hcall ht]
    exact .delete exitCode
  | terminateThread id =>
    obtain rfl : id = t.id := Option.some.inj hcall
    show EndsThread k t (k.onOther t.id terminateThread).kernel
    obtain ⟨e, heq⟩ | heq := hother <;> rw [heq]
    · exact .refused
    · exact .exit terminatedStatus
  | terminateDeleteThread id =>
    obtain rfl : id = t.id := Option.some.inj hcall
    show EndsThread k t ((k.onOther t.id terminateThread).andThen fun _ k => k.deleteThread t.id).kernel
    obtain ⟨e, heq⟩ | heq := hother <;> rw [heq]
    · exact .refused
    · exact .delete terminatedStatus
  | deleteThread id =>
    obtain rfl : id = t.id := Option.some.inj hcall
    show EndsThread k t (k.deleteDormant t.id).kernel
    unfold deleteDormant
    split
    · exact .refused
    · rw [ht]
      dsimp only
      split
      · exact endsThread_deleteThread ht
      · exact .refused
  | _ => cases hcall

/-- **An operation that is to end a thread does nothing, or ends it**, and perhaps deletes it after that. -/
theorem endsThread_after {o : Operation} (ht : k.thread? t.id = some t) (ho : o.ends? k = some t.id) :
    EndsThread k t (k.after o) := by
  cases o with
  | syscall call => exact endsThread_perform ht ho
  | exitThread id exitCode =>
    obtain rfl : id = t.id := Option.some.inj ho
    show EndsThread k t (k.exitThread t.id exitCode).kernel
    rw [exitThread_eq ht]
    exact .exit exitCode
  | terminateThread id =>
    obtain rfl : id = t.id := Option.some.inj ho
    show EndsThread k t (k.terminateThread t.id).kernel
    obtain ⟨e, heq⟩ | heq := terminateThread_cases ht <;> rw [heq]
    · exact .refused
    · exact .exit terminatedStatus
  | deleteThread id =>
    obtain rfl : id = t.id := Option.some.inj ho
    exact endsThread_deleteThread ht
  | _ => cases ho

/-- **All that joined a thread go on with the result 0 when it ends.** -/
theorem Joined.released (h : k.Joined []) (ht : k.thread? t.id = some t) (hd : t.status.dead = false)
    (hends : EndsThread k t k') (hgone : ∀ t', k'.thread? t.id = some t' → t'.status.dead = true)
    (hu : k.thread? u.id = some u) (hw : u.wait = some w) (hkind : w.kind = .join) (hhandle : w.handle = t.id) :
    k'.Released u := by
  obtain ⟨hne, hmem⟩ := h u.id w (waitOf?_eq_some.mpr ⟨u, hu, hw⟩) hkind List.not_mem_nil
  rw [hhandle] at hne hmem
  rw [queues_of_thread? ht] at hmem
  have hexit := released_exit hd hu hw hmem hne
  cases hends with
  | refused => exact absurd (hgone t ht) (by rw [hd]; decide)
  | exit exitCode => exact hexit exitCode
  | delete exitCode =>
    obtain ⟨t', ht', hdead⟩ := thread?_exit ht exitCode
    have hid : t'.id = t.id := id_of_thread? ht'
    rw [← hid, deleteThread_of_dead (thread?_id ht') hdead]
    exact (hexit exitCode).spares (spares_reclaim _ t' (hid.symm ▸ hne))

end Kernel
end GuestKernel
