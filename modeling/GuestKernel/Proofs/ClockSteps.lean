/-
# Steps of the clock

The clock may move in one step or in several: the waits whose deadline has come end all the same. A wait that ends
touches its own thread, the queues it stands in, the word that holds its timeout, where it leaves a 0, and a register of
its own context. None of that is the business of another wait, so that waits may end in any order, and in batches.

| part of the kernel | why the order does not matter |
| --- | --- |
| objects | `get?_expireAll` speaks of the set of threads that were due |
| guest memory | `Memory.tell_zero_comm` |
| contexts | `Contexts.setResult_comm` |
| the ready queue | `ReadyQueue.Lists.alike` |

Only the order among ready threads of one priority tells how the clock has moved.

Source: specification, 5.
-/

import GuestKernel.Proofs.Timeouts

namespace GuestKernel

/-! ### Writes that commute -/

/-- Words that are told to be 0 may be told so in any order. -/
theorem Memory.tell_zero_comm (m : Memory) (a b : UInt32) : (m.tell a 0).tell b 0 = (m.tell b 0).tell a 0 := by
  by_cases ha : a = 0
  · subst ha
    rfl
  by_cases hb : b = 0
  · subst hb
    rfl
  have hlocate : ∀ a b, (m.tell a 0).locate b 4 = m.locate b 4 := fun a b => (clears_tell m a).locate_eq b 4
  rw [tell_zero (m := m.tell a 0) hb, tell_zero (m := m.tell b 0) ha, hlocate, hlocate, tell_zero ha, tell_zero hb]
  cases m.locate a 4 with
  | error f => rfl
  | ok p =>
    cases m.locate b 4 with
    | error f => rfl
    | ok q =>
      ext1
      · rfl
      · funext region offset
        dsimp only [storeRun]
        split_ifs <;> rfl

namespace Contexts

variable {c : Contexts} {a b x : ContextId}

/-- Writing the result of a call. -/
def setResult (c : Contexts) (id : ContextId) (result : Int32) : Contexts :=
  c.setRegister id Register.v0 result.toUInt32

theorem get?_setResult (c : Contexts) (id : ContextId) (result : Int32) (x : ContextId) :
    (c.setResult id result).get? x = if id = x then (c.get? x).map fun context =>
      { context with registers := context.registers.set 2 result.toUInt32 } else c.get? x := by
  unfold setResult
  cases hc : c.get? id with
  | none =>
    rw [setRegister_of_dead hc]
    split
    · next hx => rw [← hx, hc]; rfl
    · rfl
  | some context =>
    rw [get?_setRegister hc Register.v0.isLt]
    split
    · next hx => rw [← hx, hc]; rfl
    · rfl

theorem ext_get? {c c' : Contexts} (h : ∀ x, c.get? x = c'.get? x) (hnext : c.nextId = c'.nextId) : c = c' :=
  Contexts.ext (Std.ExtTreeMap.ext_getElem? fun x => h x) hnext

/-- Results in different contexts may be written in any order. -/
theorem setResult_comm (h : a ≠ b) (r r' : Int32) :
    (c.setResult a r).setResult b r' = (c.setResult b r').setResult a r := by
  refine ext_get? (fun x => ?_) ?_
  · simp only [get?_setResult]
    by_cases ha : a = x
    · have hb : b ≠ x := fun hb => h (ha.trans hb.symm)
      simp only [if_pos ha, if_neg hb]
    · simp only [if_neg ha]
  · exact (Kernel.nextId_setRegister ..).trans ((Kernel.nextId_setRegister ..).trans
      ((Kernel.nextId_setRegister ..).trans (Kernel.nextId_setRegister ..)).symm)

end Contexts

/-- It does not matter in which order threads are taken off. -/
theorem Object.dropWaiters_congr {ids ids' : List ThreadId} (h : ∀ x, x ∈ ids ↔ x ∈ ids') (o : Object) :
    o.dropWaiters ids = o.dropWaiters ids' := by
  cases o <;> simp only [dropWaiters, h]

namespace Kernel

variable {k k' : Kernel} {id : ThreadId} {w : Wait} {due due' : List (ThreadId × Wait)} {k'' : Kernel} {a b c : UInt64}

/-! ### What one timeout leaves -/

theorem wakings_detach (k : Kernel) (id : ThreadId) (w : Wait) : (k.detach id w).wakings = k.wakings := by
  unfold detach
  split
  · rfl
  · split
    · rfl
    · split <;> rfl

/-- **A timeout wakes its thread once.** -/
theorem wakings_expire (hw : k.waitOf? id = some w) :
    (k.expire id w).wakings = (id, timeoutResult w) :: k.wakings := by
  have hwait : ((k.detach id w).note (.timedOut id w.kind)).waitOf? id = some w :=
    (waitOf?_detach k id w id).trans hw
  unfold expire
  rw [wakings_wake hwait]
  exact congrArg _ (wakings_detach k id w)

/-- The kernels differ at most in guest memory, registers, objects, the ready queue and the journal. -/
structure SameScene (k k' : Kernel) : Prop where
  config : k'.config = k.config
  partitions : k'.partitions = k.partitions
  started : k'.started = k.started
  current : k'.current = k.current
  clock : k'.clock = k.clock
  delivering : k'.delivering = k.delivering
  nextId : k'.nextId = k.nextId

theorem SameScene.trans {k₁ k₂ k₃ : Kernel} (h : SameScene k₁ k₂) (h' : SameScene k₂ k₃) : SameScene k₁ k₃ where
  config := h'.config.trans h.config
  partitions := h'.partitions.trans h.partitions
  started := h'.started.trans h.started
  current := h'.current.trans h.current
  clock := h'.clock.trans h.clock
  delivering := h'.delivering.trans h.delivering
  nextId := h'.nextId.trans h.nextId

theorem sameScene_schedule (k : Kernel) (id : ThreadId) (priority : UInt32) :
    SameScene k (k.schedule id priority) := by
  unfold schedule
  split <;> exact ⟨rfl, rfl, rfl, rfl, rfl, rfl, rfl⟩

theorem sameScene_wake (k : Kernel) (id : ThreadId) (result : Int32) : SameScene k (k.wake id result) := by
  obtain ⟨e, heq, -⟩ | ⟨t, w, rfl, ht, hw⟩ := wake_cases k id result
  · rw [heq]
    exact ⟨rfl, rfl, rfl, rfl, rfl, rfl, rfl⟩
  · have hq := wake_of_waiting ht hw result
    refine SameScene.trans ?_
      ⟨hq.config, hq.partitions, hq.started, hq.current, hq.clock, hq.delivering, hq.toSameObjects.nextId⟩
    have hput : SameScene k (k.putThread (t.unpark result)) := ⟨rfl, rfl, rfl, rfl, rfl, rfl, rfl⟩
    unfold awaken
    split
    · exact hput
    · exact hput.trans (sameScene_schedule ..)

theorem sameScene_expire (k : Kernel) (id : ThreadId) (w : Wait) : SameScene k (k.expire id w) := by
  have hdetach : SameScene k ((k.detach id w).note (.timedOut id w.kind)) := by
    obtain h | ⟨e, -, h⟩ | ⟨o, -, -, -, -, h⟩ := detach_cases k id w <;> rw [h] <;>
      exact ⟨rfl, rfl, rfl, rfl, rfl, rfl, rfl⟩
  exact hdetach.trans (sameScene_wake ..)

theorem sameScene_expireAll (k : Kernel) (due : List (ThreadId × Wait)) : SameScene k (k.expireAll due) := by
  induction due generalizing k with
  | nil => exact ⟨rfl, rfl, rfl, rfl, rfl, rfl, rfl⟩
  | cons e rest ih => exact (sameScene_expire k e.1 e.2).trans (ih _)

/-! ### What timeouts leave, whatever their order -/

/-- The results that timeouts write to the contexts of their threads. -/
def giveTimeouts (contextOf? : ThreadId → Option ContextId) (contexts : Contexts) (due : List (ThreadId × Wait)) :
    Contexts :=
  due.foldl (fun contexts e => ((contextOf? e.1).map (contexts.setResult · (timeoutResult e.2))).getD contexts) contexts

/-- The words that timeouts clear. -/
def clearTimeouts (memory : Memory) (due : List (ThreadId × Wait)) : Memory :=
  due.foldl (fun memory e => memory.tell e.2.timeoutAddress 0) memory

/-- What is left of a kernel in which waits have timed out. -/
structure Expired (k k' : Kernel) (due : List (ThreadId × Wait)) : Prop where
  objects : ∀ x, k'.objects.get? x = (k.objects.get? x).map fun o =>
    (if x ∈ due.map (·.1) then o.timeOut else o).dropWaiters (due.map (·.1))
  memory : k'.memory = clearTimeouts k.memory due
  contexts : k'.contexts = giveTimeouts k.contextOf? k.contexts due
  wakings : k'.wakings = (due.map fun e => (e.1, timeoutResult e.2)).reverse ++ k.wakings

/-- Timeouts of different waits do not get in each other's way. -/
theorem expired_expireAll (h : k.Placed []) (hn : (due.map (·.1)).Nodup) (hdue : ∀ e ∈ due, k.waitOf? e.1 = some e.2)
    (htime : ∀ e ∈ due, ∃ deadline, e.2.deadline? = some deadline ∧ deadline ≤ k.now) :
    Expired k (k.expireAll due) due := by
  refine ⟨get?_expireAll h hn hdue, ?_, ?_, ?_⟩
  · refine expireAll_induction (P := fun k due k' =>
      (∀ e ∈ due, ∃ deadline, e.2.deadline? = some deadline ∧ deadline ≤ k.now) →
        k'.memory = clearTimeouts k.memory due) (fun _ _ => rfl) ?_ h hn hdue htime
    intro k id w rest k' _ hw _ ih htime
    obtain ⟨⟨deadline, hd, hle⟩, hrest⟩ := List.forall_mem_cons.mp htime
    rw [ih fun e he => (now_expire k id w).symm ▸ hrest e he, memory_expire hw hd hle]
    rfl
  · refine expireAll_induction (P := fun k due k' => k'.contexts = giveTimeouts k.contextOf? k.contexts due)
      (fun _ => rfl) ?_ h hn hdue
    intro k id w rest k' hplaced hw _ ih
    rw [ih, funext (contextOf?_expire hplaced hw), contexts_expire hw]
    rfl
  · refine expireAll_induction (P := fun k due k' =>
      k'.wakings = (due.map fun e => (e.1, timeoutResult e.2)).reverse ++ k.wakings) (fun _ => rfl) ?_ h hn hdue
    intro k id w rest k' _ hw _ ih
    rw [ih, wakings_expire hw]
    simp

/-- A timeout leaves a thread its context. -/
theorem Expired.contextOf? (h : Expired k k' due) (x : ThreadId) : k'.contextOf? x = k.contextOf? x := by
  unfold Kernel.contextOf?
  rw [thread?_of_timeOut (h.objects x)]
  cases k.thread? x with
  | none => rfl
  | some t =>
    simp only [Option.map_some, Option.bind_some]
    split
    · exact t.context_timeOut
    · rfl

/-- Timeouts in two batches. -/
theorem Expired.trans (h : Expired k k' due) (h' : Expired k' k'' due')
    (hdisjoint : ∀ x ∈ due.map (·.1), x ∉ due'.map (·.1)) : Expired k k'' (due ++ due') where
  objects x := by
    rw [h'.objects, h.objects, Option.map_map]
    refine congrArg (Option.map · _) (funext fun o => ?_)
    simp only [Function.comp_apply, List.map_append]
    by_cases hx : x ∈ due.map (·.1)
    · rw [if_pos hx, if_neg (hdisjoint x hx), if_pos (List.mem_append_left _ hx), Object.dropWaiters_dropWaiters]
    · by_cases hx' : x ∈ due'.map (·.1)
      · rw [if_neg hx, if_pos hx', if_pos (List.mem_append_right _ hx'), Object.timeOut_dropWaiters,
          Object.dropWaiters_dropWaiters]
      · rw [if_neg hx, if_neg hx', if_neg fun hmem => (List.mem_append.mp hmem).elim hx hx',
          Object.dropWaiters_dropWaiters]
  memory := by
    rw [h'.memory, h.memory]
    exact (List.foldl_append ..).symm
  contexts := by
    rw [h'.contexts, h.contexts, funext h.contextOf?]
    exact (List.foldl_append ..).symm
  wakings := by
    rw [h'.wakings, h.wakings]
    simp

/-- **Waits that have timed out leave the same behind, whatever their order.** -/
theorem Expired.perm (h : Expired k k' due) (h' : Expired k k'' due') (hperm : due.Perm due')
    (hn : (due.map (·.1)).Nodup) (hleased : k.Leased) : (∀ x, k'.objects.get? x = k''.objects.get? x) ∧
      k'.memory = k''.memory ∧ k'.contexts = k''.contexts ∧ k'.wakings.Perm k''.wakings := by
  have hmem : ∀ x, x ∈ due.map (·.1) ↔ x ∈ due'.map (·.1) := fun x => (hperm.map _).mem_iff
  refine ⟨fun x => ?_, ?_, ?_, ?_⟩
  · rw [h.objects, h'.objects]
    refine congrArg (Option.map · _) (funext fun o => ?_)
    rw [Object.dropWaiters_congr hmem]
    simp only [hmem]
  · rw [h.memory, h'.memory]
    exact hperm.foldl_eq' (fun e _ e' _ m => Memory.tell_zero_comm m _ _) k.memory
  · rw [h.contexts, h'.contexts]
    refine hperm.foldl_eq' (fun e he e' he' contexts => ?_) k.contexts
    cases hc : k.contextOf? e.1 with
    | none => rfl
    | some c =>
      cases hc' : k.contextOf? e'.1 with
      | none => rfl
      | some c' =>
        by_cases hcc : c = c'
        · -- One context is that of one thread, which is due once.
          subst hcc
          have hid := hleased.apart e.1 e'.1 c hc hc'
          rw [List.inj_on_of_nodup_map hn he he' hid]
        · exact Contexts.setResult_comm hcc _ _
  · rw [h.wakings, h'.wakings]
    exact ((List.reverse_perm _).trans ((hperm.map _).trans (List.reverse_perm _).symm)).append_right _

/-! ### Who is due -/

/-- The kernel at a later time, before anybody has noticed. -/
def later (k : Kernel) (ticks : UInt64) : Kernel := { k with clock := k.clock.advance ticks }

theorem advanceClock_eq (k : Kernel) (ticks : UInt64) :
    k.advanceClock ticks = ((k.later ticks).overdue.length, (k.later ticks).expireAll (k.later ticks).overdue) := rfl

theorem toNat_now_later (k : Kernel) (ticks : UInt64) :
    (k.later ticks).now.toNat = min (k.now.toNat + ticks.toNat) (UInt64.size - 1) :=
  Clock.toNat_now_advance k.clock ticks

theorem mem_overdue_later {ticks : UInt64} {e : ThreadId × Wait} : e ∈ (k.later ticks).overdue ↔
    (e.1 ∈ k.started ∧ k.waitOf? e.1 = some e.2) ∧ ∃ deadline, e.2.deadline? = some deadline ∧
      deadline ≤ (k.later ticks).now := by
  rw [mem_overdue, mem_waits]
  rfl

theorem nodup_overdue (hn : k.started.Nodup) : (k.overdue.map (·.1)).Nodup :=
  (nodup_waits hn).sublist (List.filter_sublist.map _)

/-- Whoever has timed out waits no more; the others wait as before. -/
theorem Expired.waitOf? (h : Expired k k' due) (x : ThreadId) :
    k'.waitOf? x = if x ∈ due.map (·.1) then none else k.waitOf? x := by
  unfold Kernel.waitOf?
  rw [thread?_of_timeOut (h.objects x)]
  cases k.thread? x with
  | none => split <;> rfl
  | some t =>
    simp only [Option.map_some, Option.bind_some]
    split
    · unfold Thread.timeOut
      split
      · rfl
      · next hw => exact hw
    · rfl

/-- The clock comes to the same time in one step and in two. -/
theorem clock_later_later (hclock : k'.clock = (k.later a).clock)
    (hc : c.toNat = min (a.toNat + b.toNat) (UInt64.size - 1)) : (k'.later b).clock = (k.later c).clock := by
  have hnow' : k'.now = (k.later a).now := congrArg Clock.now hclock
  have hfirst := toNat_now_later k a
  have hsecond := toNat_now_later k' b
  have honce := toNat_now_later k c
  rw [hnow'] at hsecond
  have hnow : (k'.later b).now = (k.later c).now := UInt64.toNat_inj.mp (by omega)
  exact congrArg Clock.mk hnow

/-- **Who is due in one step is due in two**: those whose deadline comes with the first, and then the others. -/
theorem perm_overdue (hn : k.started.Nodup) (hstarted : k'.started = k.started)
    (hclock : k'.clock = (k.later a).clock) (h : Expired k k' (k.later a).overdue)
    (hc : c.toNat = min (a.toNat + b.toNat) (UInt64.size - 1)) :
    ((k.later a).overdue ++ (k'.later b).overdue).Perm (k.later c).overdue := by
  have hfirst := toNat_now_later k a
  have honce := toNat_now_later k c
  have hnow : (k'.later b).now = (k.later c).now := congrArg Clock.now (clock_later_later hclock hc)
  have hle : (k.later a).now ≤ (k.later c).now := UInt64.le_iff_toNat_le.mpr (by omega)
  -- Who is due at the second step has not been due at the first.
  have hlate : ∀ e ∈ (k'.later b).overdue, e.1 ∉ (k.later a).overdue.map (·.1) ∧ k.waitOf? e.1 = some e.2 := by
    intro e he
    have hwait := (mem_overdue_later.mp he).1.2
    rw [h.waitOf?] at hwait
    split at hwait
    · cases hwait
    · next hout => exact ⟨hout, hwait⟩
  have hnodup : ∀ k : Kernel, k.started.Nodup → k.overdue.Nodup := fun k hn => (nodup_overdue hn).of_map
  refine (List.perm_ext_iff_of_nodup ?_ (hnodup (k.later c) hn)).mpr fun e => ?_
  · refine List.nodup_append.mpr ⟨hnodup (k.later a) hn, hnodup (k'.later b) (hstarted ▸ hn), ?_⟩
    rintro e he e' he' rfl
    exact (hlate e he').1 (List.mem_map_of_mem he)
  · rw [List.mem_append]
    constructor
    · rintro (he | he)
      · obtain ⟨hwaits, deadline, hd, hdue⟩ := mem_overdue_later.mp he
        exact mem_overdue_later.mpr ⟨hwaits, deadline, hd, UInt64.le_trans hdue hle⟩
      · obtain ⟨⟨hmem, -⟩, deadline, hd, hdue⟩ := mem_overdue_later.mp he
        exact mem_overdue_later.mpr ⟨⟨hstarted ▸ hmem, (hlate e he).2⟩, deadline, hd, hnow ▸ hdue⟩
    · intro he
      obtain ⟨⟨hmem, hwait⟩, deadline, hd, hdue⟩ := mem_overdue_later.mp he
      by_cases hin : e.1 ∈ (k.later a).overdue.map (·.1)
      · obtain ⟨e', he', hid⟩ := List.mem_map.mp hin
        have hwait' := (mem_overdue_later.mp he').1.2
        rw [hid, hwait, Option.some.injEq] at hwait'
        exact Or.inl (Prod.ext hid hwait'.symm ▸ he')
      · refine Or.inr (mem_overdue_later.mpr ⟨⟨hstarted.symm ▸ hmem, ?_⟩, deadline, hd, hnow.symm ▸ hdue⟩)
        rw [h.waitOf?, if_neg hin]
        exact hwait

/-! ### Runs -/

/-- What the clock leaves of a kernel in order. -/
theorem advanceClock_expired (hc : k.Coherent) (hplaced : k.Placed []) (hn : k.started.Nodup) (ticks : UInt64) :
    Expired k (k.advanceClock ticks).2 (k.later ticks).overdue ∧ (k.advanceClock ticks).2.Coherent ∧
      SameScene (k.later ticks) (k.advanceClock ticks).2 := by
  have hnodup : ((k.later ticks).overdue.map (·.1)).Nodup := nodup_overdue (k := k.later ticks) hn
  have hdue : ∀ e ∈ (k.later ticks).overdue, (k.later ticks).waitOf? e.1 = some e.2 :=
    fun e he => (mem_overdue_later.mp he).1.2
  have hc' : (k.later ticks).Coherent := hc.sameObjects { (Quiet.refl k).toSameObjects with }
  have hexpired := expired_expireAll (k := k.later ticks) (hplaced.sameRecords (.of_objects rfl)) hnodup hdue
    fun e he => (mem_overdue.mp he).2
  rw [advanceClock_eq]
  exact ⟨⟨hexpired.objects, hexpired.memory, hexpired.contexts, hexpired.wakings⟩,
    coherent_expireAll hc' hnodup hdue, sameScene_expireAll ..⟩

theorem handedOut_advanceClock (k : Kernel) (ticks : UInt64) : k.handedOut [.advanceClock ticks] = 0 := by
  have hnext : (k.advanceClock ticks).2.nextId = k.nextId := (sameScene_expireAll (k.later ticks) _).nextId
  show (if (k.advanceClock ticks).2.nextId = k.nextId then 0 else 1) + 0 = 0
  rw [if_pos hnext]

/-- **It does not matter in how many steps the clock moves.** From any reachable state, moving it by `a` and then by `b`
wakes the same threads with the same results as moving it by the sum, or as far as it goes: the numbers of woken threads
add up, and the kernels are the same but for the order of ready threads of one priority. -/
theorem clockSteps_run (config : KernelConfig) (memory : Memory) (operations : List Operation)
    (hids : (Kernel.new config memory).handedOut operations < 2 ^ 32 - 1) (a b : UInt64) :
    let k := (Kernel.new config memory).run operations
    let first := k.advanceClock a
    let second := first.2.advanceClock b
    let once := k.advanceClock (UInt64.ofNat (min (a.toNat + b.toNat) (2 ^ 64 - 1)))
    (∃ woken₁ woken₂ woken, first.2.wakings = woken₁ ++ k.wakings ∧ second.2.wakings = woken₂ ++ first.2.wakings ∧
      once.2.wakings = woken ++ k.wakings ∧ (woken₂ ++ woken₁).Perm woken ∧
      first.1 = woken₁.length ∧ second.1 = woken₂.length ∧ once.1 = woken.length) ∧
    first.1 + second.1 = once.1 ∧ once.2.Alike second.2 := by
  intro k first second once
  -- The first step leads to a state that can be reached, too.
  have hids' : (Kernel.new config memory).handedOut (operations ++ [.advanceClock a]) < 2 ^ 32 - 1 := by
    rw [handedOut_append, handedOut_advanceClock]
    exact hids
  have hrun : (Kernel.new config memory).run (operations ++ [.advanceClock a]) = first.2 := by
    rw [run_append]
    rfl
  have hplaced := placed_run config memory operations hids
  have hplaced' := placed_run config memory (operations ++ [.advanceClock a]) hids'
  have hn' := nodup_started_run config memory (operations ++ [.advanceClock a])
  rw [hrun] at hplaced' hn'
  have hn := nodup_started_run config memory operations
  have hleased := (leased_run config memory operations hids).2.1
  obtain ⟨hfirst, -, hscene₁⟩ := advanceClock_expired hplaced.1.1 hplaced.2 hn a
  obtain ⟨hsecond, hcoherent₂, hscene₂⟩ := advanceClock_expired hplaced'.1.1 hplaced'.2 hn' b
  have htoNat : (UInt64.ofNat (min (a.toNat + b.toNat) (2 ^ 64 - 1))).toNat =
      min (a.toNat + b.toNat) (UInt64.size - 1) := UInt64.toNat_ofNat_of_lt (by simp only [UInt64.size]; omega)
  obtain ⟨honce, hcoherent, hscene⟩ := advanceClock_expired hplaced.1.1 hplaced.2 hn
    (UInt64.ofNat (min (a.toNat + b.toNat) (2 ^ 64 - 1)))
  have hperm := perm_overdue hn hscene₁.started hscene₁.clock hfirst htoNat
  have hdisjoint : ∀ x ∈ (k.later a).overdue.map (·.1), x ∉ (first.2.later b).overdue.map (·.1) := by
    intro x hx hx'
    obtain ⟨e, he, rfl⟩ := List.mem_map.mp hx'
    have hwait := (mem_overdue_later.mp he).1.2
    rw [hfirst.waitOf?, if_pos hx] at hwait
    cases hwait
  have hnodup : (((k.later a).overdue ++ (first.2.later b).overdue).map (·.1)).Nodup :=
    (hperm.map _).nodup_iff.mpr (nodup_overdue hn)
  obtain ⟨hobjects, hmemory, hcontexts, -⟩ := (hfirst.trans hsecond hdisjoint).perm honce hperm hnodup hleased
  have hnext : second.2.nextId = once.2.nextId := hscene₂.nextId.trans (hscene₁.nextId.trans hscene.nextId.symm)
  have htable : second.2.objects = once.2.objects := ObjectTable.ext_get? hobjects hnext
  have hthreads : ∀ x, once.2.thread? x = second.2.thread? x :=
    fun x => congrArg (fun objects : ObjectTable => objects.thread? x) htable.symm
  have hcount : ∀ (k : Kernel) (ticks : UInt64), (k.advanceClock ticks).1 =
      ((k.later ticks).overdue.map fun e => (e.1, timeoutResult e.2)).reverse.length := by
    intro k ticks
    rw [List.length_reverse, List.length_map, advanceClock_eq]
  refine ⟨⟨_, _, _, hfirst.wakings, hsecond.wakings, honce.wakings, ?_, ?_, ?_, ?_⟩, ?_, ?_⟩
  · rw [← List.reverse_append, ← List.map_append]
    exact (List.reverse_perm _).trans ((hperm.map _).trans (List.reverse_perm _).symm)
  · exact hcount k a
  · exact hcount first.2 b
  · exact hcount k _
  · have hlength := hperm.length_eq
    rw [List.length_append] at hlength
    exact hlength
  · exact {
      config := hscene₂.config.trans (hscene₁.config.trans hscene.config.symm)
      memory := hmemory
      contexts := hcontexts
      objects := htable
      partitions := hscene₂.partitions.trans (hscene₁.partitions.trans hscene.partitions.symm)
      started := hscene₂.started.trans (hscene₁.started.trans hscene.started.symm)
      ready := hcoherent.ready.alike (hcoherent₂.ready.congr fun x => by rw [hthreads])
      current := hscene₂.current.trans (hscene₁.current.trans hscene.current.symm)
      clock := hscene₂.clock.trans ((clock_later_later hscene₁.clock htoNat).trans hscene.clock.symm)
      delivering := hscene₂.delivering.trans (hscene₁.delivering.trans hscene.delivering.symm) }

/-- A thread naps for 50 microseconds, and others wait for twice as long: a step of 60 and one of 40 wake first one and
then two of those who wake together in one of 100. -/
theorem clockSteps_run_mixedWaits :
    (Kernel.new {} {}).handedOut mixedWaits < 2 ^ 32 - 1 ∧
      (((Kernel.new {} {}).run mixedWaits).advanceClock 60).1 = 1 ∧
      ((((Kernel.new {} {}).run mixedWaits).advanceClock 60).2.advanceClock 40).1 = 2 ∧
      (((Kernel.new {} {}).run mixedWaits).advanceClock 100).2.Alike
        ((((Kernel.new {} {}).run mixedWaits).advanceClock 60).2.advanceClock 40).2 := by
  have hids : (Kernel.new {} {}).handedOut mixedWaits < 2 ^ 32 - 1 := handedOut_lt (by decide)
  have hsteps := (clockSteps_run {} {} mixedWaits hids 60 40).2.2
  exact ⟨hids, by decide +kernel, by decide +kernel, hsteps⟩

end Kernel
end GuestKernel
