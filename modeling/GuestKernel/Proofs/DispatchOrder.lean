/-
# Who runs next

The ready queue ascends in priority, and a thread enters it in front of its equals. So the head of the queue has the
best priority there is, and of the threads that have it the head is the one that was queued last (`Recent`). The journal
has a record of every arrival, so "last" needs no other clock.

Dispatch puts the running thread back before it takes the head. In front of its equals it is the head again unless a
better thread is ready, and then all others stand as they stood (`Coherent.picks`). A thread that has just been taken off
the head goes back to the head: dispatching twice is dispatching once (`Heads.dispatch_resumed`).

Source: specification, 4.3.
-/

import GuestKernel.Proofs.Coherence

namespace GuestKernel
namespace Kernel

variable {k k' k₁ k₂ k₃ : Kernel} {id : ThreadId} {t : Thread}

/-! ### The order of arrival -/

/-- `a` has entered the ready queue, and `b` has not entered it since. -/
def QueuedAfter (k : Kernel) (a b : ThreadId) : Prop :=
  ∃ newer older, k.queueings = newer ++ a :: older ∧ b ∉ newer

/-- Of the ready threads of one priority, those that were queued later stand first. -/
def Recent (k : Kernel) : Prop :=
  k.ready.entries.Pairwise fun a b => a.priority = b.priority → k.QueuedAfter a.thread b.thread

/-- No thread has been queued; some may have left the queue. -/
structure Thins (k k' : Kernel) : Prop where
  ready : k'.ready.entries.Sublist k.ready.entries
  queueings : k'.queueings = k.queueings

theorem Thins.refl (k : Kernel) : Thins k k := ⟨List.Sublist.refl _, rfl⟩

theorem Thins.trans (h : Thins k₁ k₂) (h' : Thins k₂ k₃) : Thins k₁ k₃ :=
  ⟨h'.ready.trans h.ready, h'.queueings.trans h.queueings⟩

theorem SameObjects.thins (h : SameObjects k k') : Thins k k' := ⟨h.ready ▸ List.Sublist.refl _, h.queueings⟩

theorem thins_remove (hready : k'.ready = k.ready.remove id) (hq : k'.queueings = k.queueings) : Thins k k' := by
  refine ⟨?_, hq⟩
  rw [hready]
  exact List.eraseP_sublist

theorem thins_detach (k : Kernel) (id : ThreadId) (w : Wait) : Thins k (k.detach id w) := by
  obtain h | ⟨e, he, h⟩ | ⟨o, -, -, -, -, h⟩ := detach_cases k id w <;> rw [h]
  · exact .refl k
  · exact (Quiet.note k he).toSameObjects.thins
  · exact ⟨List.Sublist.refl _, rfl⟩

theorem thins_retire (k : Kernel) (t : Thread) (exitCode : Int32) : Thins k (k.retire t exitCode) := by
  have hfell : Thins k (k.fell t exitCode) := thins_remove rfl rfl
  obtain ⟨-, h⟩ | ⟨w, -, h⟩ := retire_eq k t exitCode <;> rw [h]
  · exact hfell
  · exact hfell.trans (thins_detach _ _ _)

/-- Whoever gets the processor leaves the ready queue. -/
theorem thins_runFirst (k : Kernel) (entries : List ReadyEntry) (h : entries.Sublist k.ready.entries) :
    Thins k (k.runFirst entries).2 := by
  induction entries generalizing k with
  | nil => exact ⟨List.nil_sublist _, rfl⟩
  | cons e rest ih =>
    have hrest : rest.Sublist k.ready.entries := (List.sublist_cons_self e rest).trans h
    have hskip : ∀ k' : Kernel, k'.ready = k.ready → k'.queueings = k.queueings → Thins k (k'.runFirst rest).2 :=
      fun k' hr hq => (Thins.mk (hr ▸ List.Sublist.refl _) hq).trans (ih k' (hr ▸ hrest))
    unfold runFirst
    split
    · exact hskip _ rfl rfl
    · dsimp only
      split
      · exact ⟨hrest, rfl⟩
      · exact hskip _ rfl rfl

theorem Recent.thins (h : k.Recent) (ht : Thins k k') : k'.Recent := by
  refine (h.sublist ht.ready).imp fun {a b} hab heq => ?_
  unfold QueuedAfter
  rw [ht.queueings]
  exact hab heq

/-- A thread that enters the queue enters it in front of those that are not better. -/
theorem schedule_of_not_contains (hc : ¬ k.ready.contains id = true) (priority : UInt32) :
    k.schedule id priority = { k.note (.scheduled ⟨id, priority⟩ (k.ready.slot priority)) with
      ready := ⟨k.ready.entries.takeWhile (·.priority < priority) ++
        ⟨id, priority⟩ :: k.ready.entries.dropWhile (·.priority < priority)⟩ } := by
  have hinsert : k.ready.insert id priority = .ok ⟨k.ready.entries.takeWhile (·.priority < priority) ++
      ⟨id, priority⟩ :: k.ready.entries.dropWhile (·.priority < priority)⟩ := if_neg hc
  have hevents : k.ready.insertEvents id priority = [.scheduled ⟨id, priority⟩ (k.ready.slot priority)] := if_neg hc
  unfold schedule
  rw [hinsert, hevents]
  rfl

/-- Nobody is queued twice. -/
theorem schedule_of_contains (hc : k.ready.contains id = true) (priority : UInt32) :
    k.schedule id priority = k.note (.scheduleSkipped (.alreadyScheduled id)) := by
  have hinsert : k.ready.insert id priority = .error (.alreadyScheduled id) := if_pos hc
  unfold schedule
  rw [hinsert]

/-- **Queueing keeps the order of arrival** among equals. -/
theorem Recent.schedule (h : k.Recent) (id : ThreadId) (priority : UInt32) : (k.schedule id priority).Recent := by
  by_cases hc : k.ready.contains id = true
  · rw [schedule_of_contains hc]
    exact h.thins ⟨List.Sublist.refl _, rfl⟩
  · rw [schedule_of_not_contains hc]
    have hold : ∀ e ∈ k.ready.entries, e.thread ≠ id :=
      fun e he heq => hc (ReadyQueue.contains_eq_true.mpr ⟨e, he, heq⟩)
    have hback : ∀ b ∈ k.ready.entries.dropWhile (·.priority < priority), b ∈ k.ready.entries :=
      fun b hb => (List.dropWhile_sublist _).subset hb
    -- Who was in the queue before has not entered it now.
    have hkeep : ∀ a b : ReadyEntry, b ∈ k.ready.entries →
        (a.priority = b.priority → k.QueuedAfter a.thread b.thread) → a.priority = b.priority →
        ∃ newer older, id :: k.queueings = newer ++ a.thread :: older ∧ b.thread ∉ newer := by
      intro a b hb hab heq
      obtain ⟨newer, older, hsplit, hnot⟩ := hab heq
      refine ⟨id :: newer, older, by rw [hsplit]; rfl, ?_⟩
      rw [List.mem_cons, not_or]
      exact ⟨hold b hb, hnot⟩
    unfold Recent at h
    rw [← List.takeWhile_append_dropWhile (p := (fun e : ReadyEntry => decide (e.priority < priority)))
      (l := k.ready.entries), List.pairwise_append] at h
    obtain ⟨hfront, hrest, hcross⟩ := h
    refine List.pairwise_append.mpr ⟨?_, List.pairwise_cons.mpr ⟨?_, ?_⟩, fun a ha b hb => ?_⟩
    · exact hfront.imp_of_mem fun {a b} _ hb hab => hkeep a b ((List.takeWhile_sublist _).subset hb) hab
    · exact fun b _ _ => ⟨[], k.queueings, rfl, List.not_mem_nil⟩
    · exact hrest.imp_of_mem fun {a b} _ hb hab => hkeep a b (hback b hb) hab
    · rcases List.mem_cons.mp hb with rfl | hb
      · intro heq
        have hlt : a.priority < priority := by simpa using List.mem_takeWhile_imp ha
        exact absurd (heq ▸ hlt) (UInt32.lt_irrefl _)
      · exact hkeep a b (hback b hb) (hcross a ha b hb)

/-- A woken thread goes in front of its equals. -/
theorem Recent.wake (h : k.Recent) (id : ThreadId) (result : Int32) : (k.wake id result).Recent := by
  obtain ⟨e, heq, -, hq, -⟩ | ⟨t, w, rfl, ht, hw⟩ := wake_cases k id result
  · rw [heq]
    exact h.thins ⟨List.Sublist.refl _, List.filterMap_cons_none hq⟩
  · refine Recent.thins ?_ (wake_of_waiting ht hw result).toSameObjects.thins
    have hput : (k.putThread (t.unpark result)).Recent := h
    unfold awaken
    split
    · exact hput
    · exact hput.schedule t.id t.priority

end Kernel

/-- **Each move keeps the order of arrival.** -/
theorem Kernel.Recent.step {l : Label} {s s' : Stage} (h : s.kernel.Recent) (hm : Move l s s') :
    s'.kernel.Recent := by
  cases hm with
  | quiet hq | load hq => exact h.thins hq.toSameObjects.thins
  | resource hq | reserve hq => exact h.thins hq.thins
  | create | erase | change | enqueue | edit | doze | strip | bury | endDelivery | dropDelivery => exact h
  | @launch k L t registers =>
    have hc := Kernel.sameObjects_allocateContext k t.entry registers
    obtain ⟨started, heq⟩ := Kernel.launch_eq (k.allocateContext t.entry registers) t k.contexts.freshId
    rw [heq]
    refine Kernel.Recent.schedule ?_ t.id t.priority
    exact h.thins ⟨hc.thins.ready, hc.thins.queueings⟩
  | park => exact h.thins (Kernel.thins_remove rfl rfl)
  | detach => exact h.thins (Kernel.thins_detach _ _ _)
  | wake => exact h.wake _ _
  | retire => exact h.thins (Kernel.thins_retire _ _ _)
  | @reprioritise k L t priority =>
    unfold Kernel.reprioritise
    dsimp only
    split
    · have hout : Kernel.Recent { k.putThread { t with priority } with ready := k.ready.remove t.id } :=
        h.thins (Kernel.thins_remove rfl rfl)
      exact hout.schedule t.id priority
    · exact h
  | hold => exact h.thins (Kernel.thins_remove rfl rfl)
  | @unhold k L t =>
    unfold Kernel.unhold
    dsimp only
    split
    · exact Kernel.Recent.schedule (k := k.putThread { t with status := .onlyReady }) h t.id t.priority
    · exact h
  | @preempt k =>
    unfold Kernel.preempt
    split
    · exact h
    · next id hc =>
      dsimp only
      split
      · exact h
      · next t ht =>
        split
        · exact Kernel.Recent.schedule
            (k := ({ k with current := none } : Kernel).putThread { t with status := .onlyReady }) h id t.priority
        · exact h
  | run => exact h.thins (Kernel.thins_runFirst _ _ (List.Sublist.refl _))
  | @interrupt k L t d =>
    unfold Kernel.interrupt
    dsimp only
    split
    · exact h.thins (Kernel.thins_remove rfl rfl)
    · exact h

namespace Kernel

variable {k : Kernel}

/-- **The order of arrival holds in every reachable state**, and the scheduler is coherent. -/
theorem recent_run (config : KernelConfig) (memory : Memory) (operations : List Operation)
    (h : (Kernel.new config memory).handedOut operations < 2 ^ 32 - 1) :
    ((Kernel.new config memory).run operations).Coherent ∧ ((Kernel.new config memory).run operations).Recent := by
  have hnew : (Kernel.new config memory).Recent := by
    obtain ⟨partitions, journal, heq, -⟩ := new_cases config memory
    rw [heq]
    exact List.Pairwise.nil
  obtain ⟨⟨hc, -⟩, hrecent⟩ := reachable_moves h hnew fun _ _ _ _ _ hm hs => hs.step hm
  exact ⟨hc, hrecent⟩

end Kernel

/-! ### Back to the queue -/

/-- The thread may have the processor. -/
def Thread.Runnable (t : Thread) : Prop := t.status = .onlyReady ∨ t.status = .onlyRunning

/-- The thread without the processor. -/
def Thread.yielded (t : Thread) : Thread := if t.status = .onlyRunning then { t with status := .onlyReady } else t

/-- A runnable thread that yields is ready. -/
theorem Thread.Runnable.yielded {t : Thread} (h : t.Runnable) : t.yielded = { t with status := .onlyReady } := by
  unfold Thread.yielded
  split
  · rfl
  · next hs =>
    obtain ⟨⟩ := t
    exact congrArg (fun status => Thread.mk _ _ _ _ _ status _ _ _ _ _ _ _ _ _ _ _ _) (h.resolve_right hs)

theorem Thread.runnable_of_yielded {t : Thread} (h : t.yielded.status = .onlyReady) : t.Runnable := by
  unfold Thread.yielded at h
  split at h
  · next hs => exact Or.inr hs
  · exact Or.inl h

namespace Kernel

variable {k k' : Kernel} {id : ThreadId} {t : Thread} {rest : List ReadyEntry} {c : ContextId}

/-- The running thread `t` goes back to the queue, in front of its equals. -/
structure Requeues (k : Kernel) (t : Thread) (k' : Kernel) : Prop where
  current : k.current = some t.id
  thread : k.thread? t.id = some t
  running : t.status = .onlyRunning
  result : k' = { k with
    objects := k.objects.put (.thread { t with status := .onlyReady }), current := none
    ready := ⟨k.ready.entries.takeWhile (·.priority < t.priority) ++
      ⟨t.id, t.priority⟩ :: k.ready.entries.dropWhile (·.priority < t.priority)⟩
    journal := k'.journal }
  queueings : k'.queueings = t.id :: k.queueings

theorem preempt_of_idle (hc : k.current = none) : k.preempt = k := by
  unfold preempt
  rw [hc]

/-- Preemption puts the running thread in front of its equals. -/
theorem Coherent.requeues_preempt (h : k.Coherent) (hd : k.delivering = none) (hc : k.current = some id) :
    ∃ t, Requeues k t k.preempt := by
  obtain ⟨t, ht, -⟩ := h.current id hc
  obtain rfl := id_of_thread? ht
  have hs := h.runs hd hc ht
  let k₀ : Kernel := ({ k with current := none } : Kernel).putThread { t with status := .onlyReady }
  have hready : ¬ k₀.ready.contains t.id = true := by
    show ¬ k.ready.contains t.id = true
    rw [h.ready.contains_iff ht, hs]
    decide
  have hpreempt : k.preempt = k₀.schedule t.id t.priority := by
    have ht₀ : ({ k with current := none } : Kernel).thread? t.id = some t := ht
    unfold Kernel.preempt
    rw [hc]
    dsimp only
    rw [ht₀]
    exact if_pos hs
  rw [schedule_of_not_contains hready] at hpreempt
  refine ⟨t, hc, ht, hs, ?_, ?_⟩ <;> rw [hpreempt] <;> rfl

theorem Coherent.thread?_preempt (h : k.Coherent) (hd : k.delivering = none) (x : ThreadId) :
    k.preempt.thread? x = (k.thread? x).map Thread.yielded := by
  have hkeep : ∀ t, k.thread? x = some t → k.current ≠ some x → t.yielded = t := fun t ht hx =>
    if_neg fun hs => hx (h.running x t ht hs)
  cases hc : k.current with
  | none =>
    rw [preempt_of_idle hc]
    cases ht : k.thread? x with
    | none => rfl
    | some t => exact congrArg some (hkeep t ht (by rw [hc]; exact Option.some_ne_none x |>.symm)).symm
  | some id =>
    obtain ⟨t, hre⟩ := h.requeues_preempt hd hc
    rw [hre.result]
    show (k.objects.put (.thread { t with status := .onlyReady })).thread? x = _
    rw [ObjectTable.thread?_put]
    split
    · next hx =>
      obtain rfl : t.id = x := hx
      rw [hre.thread, Option.map_some, Thread.Runnable.yielded (Or.inr hre.running)]
      rfl
    · next hx =>
      show k.thread? x = _
      cases ht : k.thread? x with
      | none => rfl
      | some u =>
        refine congrArg some (hkeep u ht fun hcx => hx ?_).symm
        exact Option.some.inj (hre.current.symm.trans hcx)

/-- Without the one that had the processor, the queue is as it was. -/
theorem Coherent.filter_preempt (h : k.Coherent) (hd : k.delivering = none) :
    k.preempt.ready.entries.filter (fun e => k.current != some e.thread) = k.ready.entries := by
  have hall : ∀ e ∈ k.ready.entries, (k.current != some e.thread) = true := by
    intro e he
    rw [bne_iff_ne]
    intro hc
    obtain ⟨t, ht, hs, -⟩ := h.ready.sound e he
    exact absurd (hs.symm.trans (h.runs hd hc ht)) (by decide)
  cases hc : k.current with
  | none =>
    rw [preempt_of_idle hc]
    exact List.filter_eq_self.mpr fun e he => rfl
  | some id =>
    obtain ⟨t, hre⟩ := h.requeues_preempt hd hc
    have hout : (some id != some t.id) = false := by
      rw [← hc, hre.current]
      exact bne_self_eq_false _
    rw [hre.result]
    dsimp only
    rw [List.filter_append, List.filter_cons, hout, if_neg Bool.false_ne_true, ← List.filter_append,
      List.takeWhile_append_dropWhile]
    exact List.filter_eq_self.mpr (hc ▸ hall)

/-! ### The pick -/

theorem callback?_preempt (k : Kernel) (x : ObjectId) : k.preempt.objects.callback? x = k.objects.callback? x := by
  unfold ObjectTable.callback?
  obtain heq | ⟨t, t', ht, ht', -⟩ := (rearranges_preempt k).objects x
  · rw [heq]
  · rw [ht, ht']

/-- **A thread that goes back to the queue lets the same callbacks run.** -/
theorem Coherent.map_deliverable (h : k.Coherent) (hd : k.delivering = none) :
    k.preempt.deliverable = k.deliverable.map fun e => (e.1.yielded, e.2) := by
  have hstarted : k.preempt.started = k.started := (rearranges_preempt k).started
  unfold deliverable
  rw [hstarted, List.map_filterMap]
  congr 1
  funext x
  rw [h.thread?_preempt hd]
  cases k.thread? x with
  | none => rfl
  | some t =>
    have hadmits : t.yielded.admitsCallbacks = t.admitsCallbacks := by
      unfold Thread.yielded
      split
      · next hs =>
        unfold Thread.admitsCallbacks
        rw [hs]
        rfl
      · rfl
    have hpending : k.preempt.pendingCallback? t.yielded = k.pendingCallback? t := by
      have hcallbacks : t.yielded.callbacks = t.callbacks := by
        unfold Thread.yielded
        split <;> rfl
      unfold pendingCallback?
      simp only [callback?_preempt, hcallbacks]
    simp only [Option.map_some, hadmits, hpending]
    split
    · rw [Option.map_map]
      rfl
    · rfl

theorem Coherent.deliverable_preempt (h : k.Coherent) (hd : k.delivering = none) (hn : k.deliverable = []) :
    k.preempt.deliverable = [] := by
  rw [h.map_deliverable hd, hn]
  rfl

theorem dispatch_of_deliverable (hd : k.delivering = none) (h : k.preempt.deliverable = []) :
    k.dispatch = k.preempt.runFirst k.preempt.ready.entries := by
  unfold dispatch
  rw [hd]
  dsimp only
  rw [h]
  rfl

/-- The ready thread `t` is the head of the queue, and `rest` stands behind it. -/
structure Heads (k : Kernel) (t : Thread) (c : ContextId) (rest : List ReadyEntry) : Prop where
  entries : k.ready.entries = ⟨t.id, t.priority⟩ :: rest
  thread : k.thread? t.id = some t
  ready : t.status = .onlyReady
  context : t.context = some c

/-- The kernel in which the head of the queue runs. -/
def resumed (k : Kernel) (t : Thread) (rest : List ReadyEntry) : Kernel :=
  { (k.putThread { t with status := .onlyRunning }).note (.dispatched t.id) with
    ready := ⟨rest⟩, current := some t.id }

/-- The head of the ready queue is a thread with a context. -/
theorem Coherent.heads (h : k.Coherent) {e : ReadyEntry} (he : k.ready.entries = e :: rest) :
    ∃ t c, Heads k t c rest := by
  obtain ⟨t, ht, hs, hp⟩ := h.ready.sound e (he ▸ List.mem_cons_self ..)
  have hdormant : t.isDormant = false := by
    unfold Thread.isDormant
    rw [hs]
    rfl
  obtain ⟨c, hcontext⟩ := Option.isSome_iff_exists.mp ((h.threads e.thread t ht).context hdormant)
  refine ⟨t, c, ?_, thread?_id ht, hs, hcontext⟩
  rw [he, id_of_thread? ht, hp]

theorem Heads.run (h : Heads k t c rest) :
    k.runFirst k.ready.entries = (some ⟨t.id, c, .resume⟩, k.resumed t rest) := by
  rw [h.entries, runFirst_cons (e := ⟨t.id, t.priority⟩) h.thread h.context]
  rfl

/-- **A thread that is preempted as soon as it runs is the head of the queue again**, and nothing else changes. -/
theorem Heads.noted_preempt_resumed (hh : Heads k t c rest) (h : k.Coherent)
    (hd : k.delivering = none) (hc : k.current = none) : Noted k (k.resumed t rest).preempt := by
  have hrun := h.run hd hc
  rw [hh.run] at hrun
  obtain ⟨u, hre⟩ := Coherent.requeues_preempt (k := k.resumed t rest) hrun hd rfl
  obtain rfl : u = { t with status := .onlyRunning } := by
    have hid : t.id = u.id := Option.some.inj hre.current
    have hu : (k.putThread { t with status := .onlyRunning }).thread? u.id = some u := hre.thread
    rw [← hid, thread?_putThread_self { t with status := .onlyRunning }] at hu
    exact (Option.some.inj hu).symm
  -- The thread is put back as it was, into the slot in front of all others.
  have hobjects : (k.resumed t rest).objects.put (.thread { t with status := .onlyReady }) = k.objects := by
    refine ObjectTable.ext_get? (fun x => ?_) rfl
    show ((k.objects.put _).put _).get? x = _
    rw [ObjectTable.get?_put, ObjectTable.get?_put]
    split
    · next hx =>
      obtain rfl : t.id = x := hx
      have hsame : ({ t with status := .onlyReady } : Thread) = t := by rw [← hh.ready]
      rw [hsame]
      exact (ObjectTable.thread?_eq_some.mp hh.thread).symm
    · next hx => exact if_neg hx
  have hsorted := h.ready.sorted
  rw [hh.entries, List.pairwise_cons] at hsorted
  have hslot : rest.takeWhile (·.priority < t.priority) ++ ⟨t.id, t.priority⟩ ::
      rest.dropWhile (·.priority < t.priority) = k.ready.entries := by
    cases rest with
    | nil => exact hh.entries.symm
    | cons e rest =>
      have hle : ¬ (decide (e.priority < t.priority)) = true := by
        rw [decide_eq_true_eq, UInt32.not_lt]
        exact hsorted.1 e (List.mem_cons_self ..)
      have hslot := List.takeWhile_cons_of_neg (p := fun e : ReadyEntry => decide (e.priority < t.priority))
        (l := rest) hle
      have hbehind := List.dropWhile_cons_of_neg (p := fun e : ReadyEntry => decide (e.priority < t.priority))
        (l := rest) hle
      rw [hslot, hbehind, hh.entries]
      rfl
  have hresult := hre.result
  rw [show (k.resumed t rest).ready = ⟨rest⟩ from rfl] at hresult
  unfold Noted
  rw [hresult, hobjects, hslot, ← hc]
  rfl

/-- **Dispatching twice is dispatching once.** -/
theorem Heads.dispatch_resumed (hh : Heads k t c rest) (h : k.Coherent)
    (hd : k.delivering = none) (hc : k.current = none) (hn : k.deliverable = []) :
    (k.resumed t rest).dispatch.1 = some ⟨t.id, c, .resume⟩ ∧
      Noted (k.resumed t rest) (k.resumed t rest).dispatch.2 := by
  have hnoted := hh.noted_preempt_resumed h hd hc
  generalize hj : (k.resumed t rest).preempt.journal = journal at hnoted
  unfold Noted at hnoted
  rw [hj] at hnoted
  have hh' : Heads (k.resumed t rest).preempt t c rest := by
    rw [hnoted]
    exact ⟨hh.entries, hh.thread, hh.ready, hh.context⟩
  have hn' : (k.resumed t rest).preempt.deliverable = [] := by
    rw [hnoted]
    exact hn
  rw [dispatch_of_deliverable (k := k.resumed t rest) hd hn', hh'.run, hnoted]
  exact ⟨rfl, rfl⟩

/-- Dispatch gives the processor to `t`. -/
structure Picks (k : Kernel) (d : Dispatch) (t : Thread) (k' : Kernel) : Prop where
  thread : k.thread? d.thread = some t
  runnable : t.Runnable
  context : t.context = some d.context
  resumes : d.action = .resume
  /-- No runnable thread has a better priority. -/
  best : ∀ x u, k.thread? x = some u → u.Runnable → t.priority ≤ u.priority
  /-- The running thread does not make way for its equals. -/
  keeps : ∀ x u, k.thread? x = some u → u.status = .onlyRunning → u.priority = t.priority → x = d.thread
  /-- A ready thread that is picked was queued after the others of its priority. -/
  latest : t.status = .onlyReady → ∀ x u, k.thread? x = some u → u.status = .onlyReady → u.priority = t.priority →
    x ≠ d.thread → k.QueuedAfter d.thread x
  runs : k'.current = some d.thread ∧ k'.thread? d.thread = some { t with status := .onlyRunning }
  others : ∀ x u, k.thread? x = some u → u.Runnable → x ≠ d.thread →
    k'.thread? x = some { u with status := .onlyReady } ∧ ⟨x, u.priority⟩ ∈ k'.ready.entries
  idle : ∀ x u, k.thread? x = some u → ¬ u.Runnable → k'.thread? x = some u
  /-- But for the thread that is picked and the one that ran, the queue is as it was. -/
  order : k'.ready.entries.filter (fun e => k.current != some e.thread) =
    k.ready.entries.filter fun e => e.thread != d.thread

/-- Who has just been put back was queued after everybody else. -/
theorem Coherent.queuedAfter_of_preempt (h : k.Coherent) (hd : k.delivering = none) {a b : ThreadId}
    (hq : k.preempt.QueuedAfter a b) (ha : k.current ≠ some a) : k.QueuedAfter a b ∧ k.current ≠ some b := by
  cases hc : k.current with
  | none =>
    rw [preempt_of_idle hc] at hq
    exact ⟨hq, (Option.some_ne_none b).symm⟩
  | some id =>
    obtain ⟨t, hre⟩ := h.requeues_preempt hd hc
    obtain rfl : t.id = id := Option.some.inj (hre.current.symm.trans hc)
    obtain ⟨newer, older, hsplit, hnot⟩ := hq
    rw [hre.queueings] at hsplit
    cases newer with
    | nil => exact absurd (hc.trans (congrArg some (List.cons.inj hsplit).1)) ha
    | cons y newer =>
      obtain ⟨rfl, htail⟩ := List.cons.inj hsplit
      rw [List.mem_cons, not_or] at hnot
      exact ⟨⟨newer, older, htail, hnot.2⟩, fun hb => hnot.1 (Option.some.inj hb).symm⟩

/-- A runnable thread other than the head stands behind it. -/
theorem Heads.mem_rest (hh : Heads k t c rest) (h : k.Coherent) {x : ThreadId}
    {u : Thread} (hu : k.thread? x = some u) (hs : u.status = .onlyReady) (hx : x ≠ t.id) : ⟨x, u.priority⟩ ∈ rest := by
  obtain ⟨e, he, rfl⟩ := h.ready.complete x u hu hs
  obtain ⟨u', hu', -, hp⟩ := h.ready.sound e he
  obtain rfl : u = u' := Option.some.inj (hu.symm.trans hu')
  rw [hh.entries, List.mem_cons] at he
  rw [hp]
  exact he.resolve_left fun heq => hx (congrArg ReadyEntry.thread heq)

/-- **The head of the queue after preemption is the one to run.** -/
theorem Coherent.picks (h : k.Coherent) (hr : k.preempt.Recent) (hd : k.delivering = none) {t₁ : Thread}
    (hh : Heads k.preempt t₁ c rest) :
    ∃ t, Picks k ⟨t₁.id, c, .resume⟩ t (k.preempt.resumed t₁ rest) := by
  have h₁ := h.preempt hd
  have hview := h.thread?_preempt hd
  obtain ⟨t, ht, hyield⟩ := Option.map_eq_some_iff.mp ((hview t₁.id).symm.trans hh.thread)
  have hrunnable : t.Runnable := Thread.runnable_of_yielded (hyield ▸ hh.ready)
  obtain rfl : { t with status := .onlyReady } = t₁ := hrunnable.yielded.symm.trans hyield
  have hyielded : ∀ x u, k.thread? x = some u → u.Runnable →
      k.preempt.thread? x = some { u with status := .onlyReady } := by
    intro x u hu hrun
    rw [hview, hu, Option.map_some, hrun.yielded]
  have hresumed : ∀ x, x ≠ t.id →
      (k.preempt.resumed { t with status := .onlyReady } rest).thread? x = k.preempt.thread? x :=
    fun x hx => thread?_putThread_of_ne { t with status := .onlyRunning } hx
  -- Who else may run stands behind the head: not better, and queued before it if equal.
  have hbehind : ∀ x u, k.thread? x = some u → u.Runnable → x ≠ t.id → ⟨x, u.priority⟩ ∈ rest :=
    fun x u hu hrun hx => hh.mem_rest (u := { u with status := .onlyReady }) h₁ (hyielded x u hu hrun) rfl hx
  have hsorted := h₁.ready.sorted
  unfold Recent at hr
  rw [hh.entries, List.pairwise_cons] at hr hsorted
  have hafter : ∀ x u, k.thread? x = some u → u.Runnable → u.priority = t.priority → x ≠ t.id →
      k.preempt.QueuedAfter t.id x :=
    fun x u hu hrun hp hx => hr.1 _ (hbehind x u hu hrun hx) hp.symm
  have hkeeps : ∀ x u, k.thread? x = some u → u.status = .onlyRunning → u.priority = t.priority → x = t.id := by
    intro x u hu hs hp
    by_contra hx
    have hc := h.running x u hu hs
    refine (h.queuedAfter_of_preempt hd (hafter x u hu (Or.inr hs) hp hx) fun hct => ?_).2 hc
    exact hx (Option.some.inj (hc.symm.trans hct))
  refine ⟨t, ht, hrunnable, hh.context, rfl, fun x u hu hrun => ?_, hkeeps, fun hs x u hu hsu hp hx => ?_,
    ⟨rfl, thread?_putThread_self { t with status := .onlyRunning }⟩, fun x u hu hrun hx => ?_,
    fun x u hu hrun => ?_, ?_⟩
  · by_cases hx : x = t.id
    · obtain rfl : u = t := Option.some.inj (hu.symm.trans (hx ▸ ht))
      exact UInt32.le_refl _
    · exact hsorted.1 _ (hbehind x u hu hrun hx)
  · refine (h.queuedAfter_of_preempt hd (hafter x u hu (Or.inl hsu) hp hx) fun hc => ?_).1
    exact absurd (hs.symm.trans (h.runs hd hc ht)) (by decide)
  · exact ⟨(hresumed x hx).trans (hyielded x u hu hrun), hbehind x u hu hrun hx⟩
  · have hx : x ≠ t.id := by
      rintro rfl
      exact hrun (Option.some.inj (hu.symm.trans ht) ▸ hrunnable)
    rw [hresumed x hx, hview, hu, Option.map_some]
    exact congrArg some (if_neg fun hs => hrun (Or.inr hs))
  · have hnodup := h₁.ready.nodup
    rw [hh.entries, List.map_cons, List.nodup_cons] at hnodup
    have hrest : (k.preempt.ready.entries).filter (fun e => e.thread != t.id) = rest := by
      rw [hh.entries, List.filter_cons]
      rw [if_neg (by simp)]
      refine List.filter_eq_self.mpr fun e he => bne_iff_ne.mpr fun heq => hnodup.1 ?_
      exact List.mem_map.mpr ⟨e, he, heq⟩
    show rest.filter _ = k.ready.entries.filter fun e => e.thread != t.id
    nth_rewrite 1 [← hrest]
    rw [← h.filter_preempt hd, List.filter_filter, List.filter_filter]
    exact List.filter_congr fun e _ => Bool.and_comm ..

/-- **Dispatch runs the best thread.** When no callback runs or is due: somebody is picked if any thread is runnable; who
is picked has the best priority, is the running thread if that one has it, and was queued last of those that have it
else; the others wait in the order they stood in; and a second dispatch picks the same thread and changes nothing. -/
theorem dispatch_picks_run (config : KernelConfig) (memory : Memory) (operations : List Operation)
    (hids : (Kernel.new config memory).handedOut operations < 2 ^ 32 - 1) {k : Kernel}
    (hk : (Kernel.new config memory).run operations = k) (hd : k.delivering = none) (hn : k.deliverable = []) :
    (k.dispatch.1 = none ↔ ∀ x t, k.thread? x = some t → ¬ t.Runnable) ∧
    (∀ d, k.dispatch.1 = some d → ∃ t, Picks k d t k.dispatch.2) ∧
    k.dispatch.2.dispatch.1 = k.dispatch.1 ∧ Noted k.dispatch.2 k.dispatch.2.dispatch.2 := by
  obtain ⟨h, hrecent⟩ := recent_run config memory operations hids
  rw [hk] at h hrecent
  have h₁ := h.preempt hd
  have hd₁ := (delivering_preempt k).trans hd
  have hdeliverable := h.deliverable_preempt hd hn
  have hr₁ : k.preempt.Recent := hrecent.step (Move.preempt (L := []) hd)
  rw [dispatch_of_deliverable hd hdeliverable]
  cases hentries : k.preempt.ready.entries with
  | nil =>
    have hidle : k.preempt.runFirst [] = (none, k.preempt) :=
      congrArg (fun ready => (none, { k.preempt with ready })) (congrArg ReadyQueue.mk hentries).symm
    have hagain : k.preempt.dispatch = (none, k.preempt) := by
      have hstill := preempt_of_idle (current_preempt k)
      rw [dispatch_of_deliverable hd₁ (hstill.symm ▸ hdeliverable), hstill, hentries, hidle]
    rw [hidle, hagain]
    refine ⟨⟨fun _ x t ht hrun => ?_, fun _ => rfl⟩, fun d hd => ?_, rfl, Noted.refl _⟩
    · have hready : k.preempt.thread? x = some { t with status := .onlyReady } := by
        rw [h.thread?_preempt hd, ht, Option.map_some, hrun.yielded]
      obtain ⟨e, he, -⟩ := h₁.ready.complete x _ hready rfl
      rw [hentries] at he
      exact absurd he List.not_mem_nil
    · cases hd
  | cons e rest =>
    obtain ⟨t₁, c, hh⟩ := h₁.heads hentries
    obtain ⟨t, hpicks⟩ := h.picks hr₁ hd hh
    obtain ⟨hsame, hnoted⟩ := hh.dispatch_resumed h₁ hd₁ (current_preempt k) hdeliverable
    rw [← hentries, hh.run]
    refine ⟨⟨fun hnone => ?_, fun hnone => ?_⟩, ?_, hsame, hnoted⟩
    · cases hnone
    · exact absurd hpicks.runnable (hnone t₁.id t hpicks.thread)
    · rintro d hd
      cases hd
      exact ⟨t, hpicks⟩

/-- A thread runs while one of its priority and two of a better one become ready. -/
def betterPeers : List Operation :=
  [.syscall (.createThread "main" 0x08900000 32 0x1000 0), .syscall (.createThread "peer" 0x08900000 32 0x1000 0),
    .syscall (.createThread "better" 0x08900000 31 0x1000 0), .syscall (.createThread "last" 0x08900000 31 0x1000 0),
    .syscall (.startThread 1 0 0), .dispatch, .syscall (.startThread 2 0 0), .syscall (.startThread 3 0 0),
    .syscall (.startThread 4 0 0)]

/-- Of the two better ones the last is picked, and the thread that ran stands before its peer again. -/
theorem dispatch_picks_betterPeers :
    let k := (Kernel.new {} {}).run betterPeers
    (Kernel.new {} {}).handedOut betterPeers < 2 ^ 32 - 1 ∧ k.delivering = none ∧ k.deliverable = [] ∧
      k.current = some 1 ∧ k.ready.entries = [⟨4, 31⟩, ⟨3, 31⟩, ⟨2, 32⟩] ∧
      k.dispatch.2.ready.entries = [⟨3, 31⟩, ⟨1, 32⟩, ⟨2, 32⟩] ∧
      ∃ t, Picks k ⟨4, 4, .resume⟩ t k.dispatch.2 := by
  intro k
  have hids : (Kernel.new {} {}).handedOut betterPeers < 2 ^ 32 - 1 := handedOut_lt (by decide)
  have hd : k.delivering = none := by decide +kernel
  have hn : k.deliverable = [] := by decide +kernel
  refine ⟨hids, hd, hn, by decide +kernel, by decide +kernel, by decide +kernel, ?_⟩
  exact (dispatch_picks_run {} {} betterPeers hids rfl hd hn).2.1 ⟨4, 4, .resume⟩ (by decide +kernel)

end Kernel
end GuestKernel
