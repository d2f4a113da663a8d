/-
# Sleeps and wakeups

A wakeup for a thread that does not sleep is saved, and a sleep that finds a saved wakeup is over at once. A thread that
is asleep therefore has none saved, and nothing but a wakeup or its death ends its sleep (`sleeps_on_after`): a sleep has
no deadline, and no queue knows of it.

The saved wakeups are an account. What comes in are the wakeups that succeed; what goes out are the sleeps that complete,
at once or by being woken, and the wakeups that a call drops.

| operation on the thread | wakeups in | sleeps completed | dropped | saved |
| --- | --- | --- | --- | --- |
| wakeup, asleep | 1 | 1 | | 0 |
| wakeup, else | 1 | | | one more |
| sleep with a wakeup saved | | 1 | | one less |
| sleep with none | | | | 0 |
| drop the wakeups | | | `n` | from `n` to 0 |

Source: specification, 4.4.
-/

import GuestKernel.Proofs.Accounts
import GuestKernel.Proofs.ServiceOrder
import GuestKernel.Proofs.ThreadRecords

namespace GuestKernel

/-! ### Calls about wakeups -/

namespace Operation

variable {o : Operation} {k : Kernel} {id : ThreadId}

/-- The thread that an operation is to wake up. -/
def rouses? (k : Kernel) : Operation → Option ThreadId
  | wakeupThread id => some id
  | syscall (.wakeupThread id) => (k.resolve id).toOption
  | _ => none

/-- The thread whose saved wakeups an operation drops. -/
def drops? (k : Kernel) : Operation → Option ThreadId
  | cancelWakeup id => some id
  | syscall (.cancelWakeupThread id) => (k.resolve id).toOption
  | _ => none

theorem counts?_of_rouses? (h : o.rouses? k = some id) : o.counts? k = some id := by
  cases o with
  | wakeupThread => exact h
  | syscall call => cases call <;> first | exact h | cases h
  | _ => cases h

theorem counts?_of_drops? (h : o.drops? k = some id) : o.counts? k = some id := by
  cases o with
  | cancelWakeup => exact h
  | syscall call => cases call <;> first | exact h | cases h
  | _ => cases h

theorem drops?_of_rouses? (h : o.rouses? k = some id) : o.drops? k = none := by
  cases o with
  | wakeupThread => rfl
  | syscall call => cases call <;> first | rfl | cases h
  | _ => cases h

end Operation

namespace Kernel

variable {k : Kernel} {o : Operation} {id : ThreadId} {t : Thread} {w : Wait} {l : Label} {s s' : Stage}
  {callbacks : Bool}

theorem kernel_onThread {α : Type} {x : ThreadId} (call : Kernel → ThreadId → Reply α)
    (h : (k.resolve x).toOption = some id) : (k.onThread x call).kernel = (call k id).kernel := by
  cases hx : k.resolve x with
  | error e =>
    rw [hx] at h
    cases h
  | ok y =>
    rw [hx] at h
    cases h
    rw [onThread, hx]

/-- The calls about the wakeups of a thread. -/
theorem of_counts? (h : o.counts? k = some id) :
    (o.rouses? k = some id ∧ k.after o = (k.wakeupThread id).kernel) ∨
      (o.drops? k = some id ∧ k.after o = (k.cancelWakeup id).kernel) ∨
      ∃ callbacks, o = .syscall (.sleepThread callbacks) ∧ k.current = some id := by
  cases o with
  | wakeupThread => cases h; exact Or.inl ⟨rfl, rfl⟩
  | cancelWakeup => cases h; exact Or.inr (Or.inl ⟨rfl, rfl⟩)
  | syscall call =>
    cases call with
    | wakeupThread => exact Or.inl ⟨h, kernel_onThread wakeupThread h⟩
    | cancelWakeupThread => exact Or.inr (Or.inl ⟨h, kernel_onThread cancelWakeup h⟩)
    | sleepThread callbacks => exact Or.inr (Or.inr ⟨callbacks, rfl, h⟩)
    | _ => cases h
  | _ => cases h

/-! ### How a sleep begins -/

/-- A sleep is one from before the operation, or one without a deadline that the operation begins; or its thread has been
parked and is about to settle. -/
def Sleeps (k : Kernel) (o : Operation) (s : Stage) : Prop :=
  ∀ id w, s.kernel.waitOf? id = some w → w.kind = .sleep → k.waitOf? id = some w ∨
    (o.counts? k = some id ∧ w.timeout = 0) ∨ (o.mayBlock = true ∧ s.transit = [id])

/-- A move begins no sleep but the one that the operation is. -/
theorem Sleeps.step (h : Sleeps k o s) (hl : o.Permits k l) (hc : s.kernel.Coherent)
    (hm : Move l s s') : Sleeps k o s' := by
  intro id w hw hkind
  obtain ⟨t', ht', hwait'⟩ := waitOf?_eq_some.mp hw
  obtain ⟨t, ht, hstep⟩ | ⟨-, hnew, -⟩ := hm.thread hc ht'
  · obtain heq | hnone | ⟨v, rfl⟩ := hstep.wait_eq
    · have hwait : t.wait = some w := heq.symm.trans hwait'
      obtain hold | hbegun | ⟨hblock, htransit⟩ := h id w (waitOf?_eq_some.mpr ⟨t, ht, hwait⟩) hkind
      · exact Or.inl hold
      · exact Or.inr (Or.inl hbegun)
      · -- Whoever has been parked stays in transit until it enters a queue or sleeps.
        cases hm with
        | erase | change | park | detach | retire => cases htransit
        | @enqueue k₁ x x' u v _ hu hv hq =>
          obtain rfl : u.id = id := List.head_eq_of_cons_eq htransit
          obtain rfl := Option.some.inj (hu.symm.trans ht)
          obtain rfl := Option.some.inj (hv.symm.trans hwait)
          obtain ⟨d, hasks, -⟩ := hq.entries
          exact absurd hkind hasks.kind_ne.1
        | @doze k₁ u v hu hv _ _ hrest =>
          obtain rfl : u.id = id := List.head_eq_of_cons_eq htransit
          obtain rfl := Option.some.inj (hu.symm.trans ht)
          obtain rfl := Option.some.inj (hv.symm.trans hwait)
          exact Or.inr (Or.inl ⟨hl.doze hkind, hrest hkind⟩)
        | @wake k₁ L x result =>
          obtain rfl : x = id := List.head_eq_of_cons_eq htransit
          have hwoken : (k₁.wake x result).thread? x = _ := (thread?_wake ..).trans (if_pos rfl)
          obtain ⟨u, -, rfl⟩ := Option.map_eq_some_iff.mp (hwoken.symm.trans ht')
          rw [u.wait_woken] at hwait'
          cases hwait'
        | _ => exact Or.inr (Or.inr ⟨hblock, htransit⟩)
    · cases hnone.symm.trans hwait'
    · have hpark : o.mayBlock = true ∧ k.current = some t.id := by
        cases hl with
        | touch _ hs => exact hs trivial
      rw [id_of_thread? ht] at hm
      cases hm with
      | park => exact Or.inr (Or.inr ⟨hpark.1, rfl⟩)
  · cases hnew.2.1.symm.trans hwait'

/-- **Only a sleep of the thread itself puts it to sleep**, and then without a deadline. -/
theorem fallsAsleep_after (h : k.Coherent ∧ k.IdsBelow) (hn : k.started.Nodup)
    (hw : (k.after o).waitOf? id = some w) (hkind : w.kind = .sleep) :
    k.waitOf? id = some w ∨ (o.counts? k = some id ∧ w.timeout = 0) := by
  obtain ⟨-, L, hsleeps, hL⟩ := staged_after (o := o) (P := fun s => Sleeps k o s) h hn
    (fun l s s' hl hc _ hm hs => hs.step hl hc hm) fun id w hw _ => Or.inl hw
  obtain hold | hbegun | ⟨hblock, htransit⟩ := hsleeps id w hw hkind
  · exact Or.inl hold
  · exact Or.inr hbegun
  · have hcancel : k.failsCancel o = false := by
      cases o with
      | syscall call => cases call <;> first | rfl | cases hblock
      | _ => rfl
    cases (hL hcancel).symm.trans htransit

/-! ### How a sleep ends -/

/-- A sleep goes on with every move of an operation that is not about the thread's wakeups and ends no timeouts. -/
theorem sleepsOn_step (hlt : id.toNat < k.nextId.toNat) (hl : o.Permits k l)
    (hcounts : o.counts? k ≠ some id) (hexpires : o.expires = false) (hkind : w.kind = .sleep)
    (hc : s.kernel.Coherent) (hp : s.kernel.Placed s.transit) (hm : Move l s s') (h : WaitsOn s id w) :
    WaitsOn s' id w := by
  refine h.step hlt hl hc hm fun hpark hasleep hout hmem => ?_
  obtain hmem | ⟨x, hx, -, hmem, -⟩ | ⟨v, rfl⟩ | ⟨v, rfl, hv⟩ | ⟨u, hu, hmem⟩ := hm.enters_transit hmem
  · exact hout hmem
  · have hqueued : id ∈ (s.kernel.queues x.id).map (·.1) := by
      rw [queues_of_get? hx, Object.map_entries]
      exact hmem
    exact (Places.handle_eq hp hasleep hqueued).2.1 hkind
  · exact hpark v rfl
  · obtain rfl := Option.some.inj (hv.symm.trans hasleep)
    cases hl with
    | touch _ hs =>
      rcases hs trivial with hdue | ⟨-, hyes⟩
      · exact Bool.false_ne_true (hexpires.symm.trans hdue)
      · exact hcounts hyes
  · cases hkind.symm.trans (hp.joins hu hmem hasleep)

/-- Whether the thread of an id is registered and alive. -/
def lives (k : Kernel) (id : ThreadId) : Bool := (k.thread? id).any (!·.status.dead)

theorem lives_eq (ht : k.thread? id = some t) : k.lives id = !t.status.dead := by
  rw [lives, ht]
  rfl

/-- Timeouts do not end a sleep that has none. -/
theorem waitOf?_expireTimeouts (h : k.Placed []) (hn : k.started.Nodup) (hw : k.waitOf? id = some w)
    (hrest : w.timeout = 0) : k.expireTimeouts.2.waitOf? id = some w := by
  have hover : k.overdue.Sublist k.waits := List.filter_sublist
  have hthread : k.expireTimeouts.2.thread? id = _ := thread?_expireAll k.overdue h ((nodup_waits hn).sublist (hover.map _))
    (fun e he => (mem_waits.mp (hover.subset he)).2) id
  have hout : id ∉ k.overdue.map (·.1) := by
    intro hmem
    obtain ⟨e, he, rfl⟩ := List.mem_map.mp hmem
    obtain ⟨hwaits, deadline, hdeadline, -⟩ := mem_overdue.mp he
    obtain rfl := Option.some.inj ((mem_waits.mp hwaits).2.symm.trans hw)
    rw [Wait.deadline?, if_pos hrest] at hdeadline
    cases hdeadline
  obtain ⟨t, ht, hwait⟩ := waitOf?_eq_some.mp hw
  rw [ht, Option.map_some, if_neg hout] at hthread
  exact waitOf?_eq_some.mpr ⟨_, hthread, hwait⟩

/-- **A sleep goes on with every operation that is not about the thread's wakeups**, unless it kills the thread. -/
theorem sleeps_on_after (h : k.Coherent ∧ k.IdsBelow) (hn : k.started.Nodup) (hp : k.Placed [])
    (hcounts : o.counts? k ≠ some id) (hw : k.waitOf? id = some w) (hkind : w.kind = .sleep) (hrest : w.timeout = 0) :
    (k.after o).waitOf? id = some w ∨ (k.after o).lives id = false := by
  cases hexpires : o.expires with
  | true =>
    cases o with
    | advanceClock ticks =>
      exact Or.inl (waitOf?_expireTimeouts (k := { k with clock := k.clock.advance ticks })
        (hp.sameRecords (.of_objects rfl)) hn hw hrest)
    | expireTimeouts => exact Or.inl (waitOf?_expireTimeouts hp hn hw hrest)
    | _ => cases hexpires
  | false =>
    obtain ⟨t, ht, hwait⟩ := waitOf?_eq_some.mp hw
    obtain ⟨-, L, ⟨-, hwaits⟩, -⟩ := staged_after (o := o)
      (P := fun s => s.kernel.Placed s.transit ∧ WaitsOn s id w) h hn
      (fun l s s' hl hc hfresh hm hs => ⟨hs.1.step hc hfresh hm,
        sleepsOn_step (h.2.thread_lt ht) hl hcounts hexpires hkind hc hs.1 hm hs.2⟩)
      ⟨hp, fun u hu => Or.inr ⟨Option.some.inj (ht.symm.trans hu) ▸ hwait, List.not_mem_nil⟩⟩
    cases ht' : (k.after o).thread? id with
    | none =>
      refine Or.inr ?_
      rw [lives, ht']
      rfl
    | some t' =>
      rcases hwaits t' ht' with hdead | ⟨hwait', -⟩
      · refine Or.inr ?_
        rw [lives_eq ht', hdead]
        rfl
      · exact Or.inl (waitOf?_eq_some.mpr ⟨t', ht', hwait'⟩)

/-! ### What the three calls do -/

/-- Whether the thread of an id sleeps. -/
def asleep (k : Kernel) (id : ThreadId) : Bool := (k.waitOf? id).any fun w => w.kind = .sleep

theorem asleep_iff : k.asleep id = true ↔ ∃ w, k.waitOf? id = some w ∧ w.kind = .sleep := by
  rw [asleep, Option.any_eq_true]
  simp only [decide_eq_true_eq]

theorem asleep_eq (ht : k.thread? id = some t) : k.asleep id = t.wait.any fun w => w.kind = .sleep := by
  rw [asleep, waitOf?, ht]
  rfl

/-- A wakeup of a thread that is not dormant succeeds, and ends its sleep or is saved. -/
theorem thread?_wakeupThread (ht : k.thread? id = some t) :
    (t.isDormant = true ∧ (k.wakeupThread id).result.isOk = false ∧ (k.wakeupThread id).kernel = k) ∨
      t.isDormant = false ∧ (k.wakeupThread id).result.isOk = true ∧
        (k.wakeupThread id).kernel.thread? id =
          some (if k.asleep id then t.woken 0 else { t with wakeups := t.wakeups + 1 }) := by
  obtain rfl := id_of_thread? ht
  have hsleep : (t.wait.map (·.kind)) = some .sleep ↔ k.asleep t.id = true := by
    rw [asleep_eq ht, Option.map_eq_some_iff, Option.any_eq_true]
    simp only [decide_eq_true_eq]
  unfold wakeupThread
  rw [ht]
  dsimp only
  by_cases hdormant : t.isDormant = true
  · rw [if_pos hdormant]
    exact Or.inl ⟨hdormant, rfl, rfl⟩
  · rw [if_neg hdormant]
    refine Or.inr ⟨Bool.eq_false_iff.mpr hdormant, ?_⟩
    by_cases hasleep : k.asleep t.id = true
    · rw [if_pos (hsleep.mpr hasleep), if_pos hasleep]
      refine ⟨rfl, (thread?_wake ..).trans ?_⟩
      rw [if_pos rfl, ht]
      rfl
    · rw [if_neg (mt hsleep.mp hasleep), if_neg hasleep]
      exact ⟨rfl, thread?_putThread_self _⟩

/-- A cancellation tells how many wakeups were saved, and drops them. -/
theorem thread?_cancelWakeup (ht : k.thread? id = some t) :
    (k.cancelWakeup id).result = .ok t.wakeups ∧
      (k.cancelWakeup id).kernel.thread? id = some { t with wakeups := 0 } := by
  obtain rfl := id_of_thread? ht
  unfold cancelWakeup
  rw [ht]
  exact ⟨rfl, thread?_putThread_self _⟩

/-- A sleep uses up a saved wakeup at once. With none it is refused, or parks a thread that did not sleep. -/
theorem thread?_sleepThread (hc : k.Coherent) (hcurrent : k.current = some id) (ht : k.thread? id = some t)
    (callbacks : Bool) :
    (0 < t.wakeups ∧ (k.sleepThread callbacks).result = .ok (.completed 0) ∧
        (k.sleepThread callbacks).kernel.thread? id = some { t with wakeups := t.wakeups - 1 }) ∨
      t.wakeups = 0 ∧ (∀ v, (k.sleepThread callbacks).result ≠ .ok (.completed v)) ∧
        ((k.sleepThread callbacks).kernel = k ∨
          k.asleep id = false ∧ ∃ w, w.kind = .sleep ∧ (k.sleepThread callbacks).kernel.thread? id = some (t.park w)) := by
  obtain rfl := id_of_thread? ht
  unfold sleepThread
  rw [hcurrent]
  dsimp only
  rw [ht]
  dsimp only
  by_cases hsaved : 0 < t.wakeups
  · rw [if_pos hsaved]
    exact Or.inl ⟨hsaved, rfl, thread?_putThread_self _⟩
  · rw [if_neg hsaved]
    refine Or.inr ⟨?_, ?_⟩
    · rw [UInt32.lt_iff_toNat_lt] at hsaved
      exact UInt32.toNat_inj.mp (Nat.eq_zero_of_not_pos hsaved)
    · obtain ⟨e, he⟩ | ⟨u, hidle, hu, hut, hbegun⟩ := beginWait_cases k { kind := .sleep, callbacks }
      · rw [he]
        exact ⟨fun v hv => (by cases hv), Or.inl rfl⟩
      · have hid : t.id = u.id := Option.some.inj (hcurrent.symm.trans hu)
        rw [← hid] at hut
        obtain rfl := Option.some.inj (ht.symm.trans hut)
        rw [hbegun]
        refine ⟨fun v hv => (by cases hv), Or.inr ⟨?_, _, ?_, (thread?_park ..).trans (if_pos rfl)⟩⟩
        · rw [asleep_eq ht, (hc.threads _ _ ht).wait_eq_none (by rw [hc.runs hidle hcurrent ht]; rfl)]
          rfl
        · rfl

/-! ### Sleepers have no wakeup saved -/

/-- A sleep has no deadline, and a thread that is asleep has no wakeup saved. -/
def Rested (k : Kernel) : Prop :=
  ∀ id t w, k.thread? id = some t → t.wait = some w → w.kind = .sleep → w.timeout = 0 ∧ t.wakeups = 0

theorem Rested.wakeups_eq_zero (h : k.Rested) (ht : k.thread? id = some t) (hs : k.asleep id = true) : t.wakeups = 0 := by
  obtain ⟨w, hw, hkind⟩ := asleep_iff.mp hs
  obtain ⟨u, hu, hwait⟩ := waitOf?_eq_some.mp hw
  obtain rfl := Option.some.inj (ht.symm.trans hu)
  exact (h id t w ht hwait hkind).2

/-- **Every operation leaves sleepers without saved wakeups.** -/
theorem Rested.after (h : k.Rested) (hk : k.Coherent ∧ k.IdsBelow) (hn : k.started.Nodup) : (k.after o).Rested := by
  intro id t' w ht' hwait' hkind
  have hw' : (k.after o).waitOf? id = some w := waitOf?_eq_some.mpr ⟨t', ht', hwait'⟩
  have hasleep' : (k.after o).asleep id = true := asleep_iff.mpr ⟨w, hw', hkind⟩
  have hbefore := fallsAsleep_after hk hn hw' hkind
  by_cases hcounts : o.counts? k = some id
  · have hrest : w.timeout = 0 := by
      rcases hbefore with hold | ⟨-, hrest⟩
      · obtain ⟨t, ht, hwait⟩ := waitOf?_eq_some.mp hold
        exact (h id t w ht hwait hkind).1
      · exact hrest
    refine ⟨hrest, ?_⟩
    cases ht : k.thread? id with
    | none => exact (new_after hk hn ht ht').2.1
    | some t =>
      obtain ⟨-, hafter⟩ | ⟨-, hafter⟩ | ⟨callbacks, rfl, hcurrent⟩ := of_counts? hcounts
      · obtain ⟨-, -, hsame⟩ | ⟨-, -, hthread⟩ := thread?_wakeupThread ht
        · rw [hafter, hsame] at ht' hasleep'
          exact h.wakeups_eq_zero ht' hasleep'
        · rw [← hafter, ht'] at hthread
          cases hs : k.asleep id with
          | true =>
            rw [hs, if_pos rfl] at hthread
            rw [Option.some.inj hthread, t.wait_woken] at hwait'
            cases hwait'
          | false =>
            rw [hs, if_neg Bool.false_ne_true] at hthread
            rw [asleep_eq ht', Option.some.inj hthread] at hasleep'
            cases hs.symm.trans ((asleep_eq ht).trans hasleep')
      · have hthread := (thread?_cancelWakeup ht).2
        rw [← hafter, ht'] at hthread
        rw [Option.some.inj hthread]
      · obtain ⟨hsaved, -, hthread⟩ | ⟨hnone, -, hsame | ⟨-, v, -, hthread⟩⟩ := thread?_sleepThread hk.1 hcurrent ht callbacks
        · -- Who uses up a wakeup had one, so it was not asleep.
          have heq := Option.some.inj (ht'.symm.trans hthread)
          rw [asleep_eq ht', heq] at hasleep'
          rw [h.wakeups_eq_zero ht ((asleep_eq ht).trans hasleep')] at hsaved
          exact absurd hsaved (UInt32.lt_irrefl 0)
        · have ht'' : k.thread? id = some t' := hsame ▸ ht'
          rw [Option.some.inj (ht''.symm.trans ht)]
          exact hnone
        · rw [Option.some.inj (ht'.symm.trans hthread)]
          exact hnone
  · obtain hold | ⟨hyes, -⟩ := hbefore
    · obtain ⟨t, ht, hwait⟩ := waitOf?_eq_some.mp hold
      obtain ⟨hrest, hnone⟩ := h id t w ht hwait hkind
      exact ⟨hrest, (wakeups_after hk hn hcounts ht ht').trans hnone⟩
    · exact absurd hyes hcounts

/-- **A sleep ends by a wakeup that succeeds, or by the death of the thread.** -/
theorem Rested.sleeps_on (h : k.Rested) (hk : k.Coherent ∧ k.IdsBelow) (hn : k.started.Nodup) (hp : k.Placed [])
    (hw : k.waitOf? id = some w) (hkind : w.kind = .sleep) :
    (k.after o).waitOf? id = some w ∨ (o.rouses? k = some id ∧ (k.wakeupThread id).result.isOk = true) ∨
      (k.after o).lives id = false := by
  obtain ⟨t, ht, hwait⟩ := waitOf?_eq_some.mp hw
  obtain ⟨hrest, hnone⟩ := h id t w ht hwait hkind
  by_cases hcounts : o.counts? k = some id
  · obtain ⟨hrouses, hafter⟩ | ⟨-, hafter⟩ | ⟨callbacks, rfl, hcurrent⟩ := of_counts? hcounts
    · obtain ⟨-, -, hsame⟩ | ⟨-, hok, -⟩ := thread?_wakeupThread ht
      · exact Or.inl (by rw [hafter, hsame]; exact hw)
      · exact Or.inr (Or.inl ⟨hrouses, hok⟩)
    · refine Or.inl (waitOf?_eq_some.mpr ⟨{ t with wakeups := 0 }, ?_, hwait⟩)
      rw [hafter]
      exact (thread?_cancelWakeup ht).2
    · obtain ⟨hsaved, -⟩ | ⟨-, -, hsame | ⟨hawake, -⟩⟩ := thread?_sleepThread hk.1 hcurrent ht callbacks
      · rw [hnone] at hsaved
        exact absurd hsaved (UInt32.lt_irrefl 0)
      · exact Or.inl ((congrArg (·.waitOf? id) hsame).trans hw)
      · cases hawake.symm.trans (asleep_iff.mpr ⟨w, hw, hkind⟩)
  · exact (sleeps_on_after hk hn hp hcounts hw hkind hrest).imp_right Or.inr

/-! ### The account -/

/-- 1 for a wakeup of the thread that succeeds. -/
def roused (id : ThreadId) (k : Kernel) (o : Operation) : Int :=
  if o.rouses? k = some id ∧ (k.wakeupThread id).result.isOk = true then 1 else 0

/-- The number that a call that drops the thread's wakeups returns. -/
def dropped (id : ThreadId) (k : Kernel) (o : Operation) : Int :=
  if o.drops? k = some id then
    match (k.cancelWakeup id).result with
    | .ok n => n.toNat
    | .error _ => 0
  else 0

/-- Whether the operation is a sleep of the thread that is over at once. -/
def sleepsAtOnce (id : ThreadId) (k : Kernel) : Operation → Bool
  | .syscall (.sleepThread callbacks) =>
    k.current = some id &&
      match (k.sleepThread callbacks).result with
      | .ok (.completed _) => true
      | _ => false
  | _ => false

/-- 1 for an operation with which a sleep of the thread completes: at once, or so that the thread lives on awake. -/
def slept (id : ThreadId) (k : Kernel) (o : Operation) : Int :=
  if k.sleepsAtOnce id o = true ∨
      (k.asleep id = true ∧ (k.after o).asleep id = false ∧ (k.after o).lives id = true) then 1 else 0

/-- The saved wakeups of a thread. -/
def wakeupAccount (id : ThreadId) : Account where
  held k := (k.thread? id).map fun t => (t.wakeups.toNat : Int)
  added := roused id
  taken k o := slept id k o + dropped id k o

/-- The thread has room for one more wakeup, if the operation is to wake it up. -/
def HasRoom (id : ThreadId) (k : Kernel) (o : Operation) : Prop :=
  o.rouses? k = some id → (k.thread? id).all (fun t => decide (t.wakeups.toNat + 1 < 2 ^ 32)) = true

instance (id : ThreadId) (k : Kernel) (o : Operation) : Decidable (k.HasRoom id o) :=
  inferInstanceAs (Decidable (_ → _))

/-- A sleep that a saved wakeup ends at once is one that returns. -/
theorem sleepsAtOnce_iff (hcurrent : k.current = some id) :
    k.sleepsAtOnce id (.syscall (.sleepThread callbacks)) = true ↔
      ∃ v, (k.sleepThread callbacks).result = .ok (.completed v) := by
  unfold sleepsAtOnce
  dsimp only
  rw [hcurrent, decide_eq_true rfl, Bool.true_and]
  split
  · exact ⟨fun _ => ⟨_, ‹_›⟩, fun _ => rfl⟩
  · refine ⟨fun h => absurd h Bool.false_ne_true, ?_⟩
    rintro ⟨v, hv⟩
    rename_i hother
    exact absurd hv (hother v)

theorem counts?_of_sleepsAtOnce (h : k.sleepsAtOnce id o = true) : o.counts? k = some id := by
  cases o with
  | syscall call =>
    cases call with
    | sleepThread callbacks =>
      unfold sleepsAtOnce at h
      exact of_decide_eq_true (Bool.and_eq_true_iff.mp h).1
    | _ => cases h
  | _ => cases h

theorem not_sleepsAtOnce_of_rouses? (h : o.rouses? k = some id) : k.sleepsAtOnce id o = false := by
  cases o with
  | wakeupThread => rfl
  | syscall call => cases call <;> first | rfl | cases h
  | _ => rfl

theorem not_sleepsAtOnce_of_drops? (h : o.drops? k = some id) : k.sleepsAtOnce id o = false := by
  cases o with
  | cancelWakeup => rfl
  | syscall call => cases call <;> first | rfl | cases h
  | _ => rfl

/-- No sleep completes if none is over at once and every sleep goes on or ends with the thread. -/
theorem slept_eq_zero (hnow : k.sleepsAtOnce id o = false)
    (hon : k.asleep id = true → (k.after o).asleep id = false → (k.after o).lives id = false) : slept id k o = 0 := by
  refine if_neg ?_
  rintro (hyes | ⟨hasleep, hawake, hlives⟩)
  · exact Bool.false_ne_true (hnow.symm.trans hyes)
  · exact Bool.false_ne_true ((hon hasleep hawake).symm.trans hlives)

variable {t' : Thread}

/-- The books of an operation that is to wake up the thread. -/
theorem balances_wakeup (hroom : k.HasRoom id o) (ho : o.rouses? k = some id)
    (hafter : k.after o = (k.wakeupThread id).kernel) (ht : k.thread? id = some t)
    (ht' : (k.after o).thread? id = some t') :
    (t'.wakeups.toNat : Int) + (slept id k o + dropped id k o) = t.wakeups.toNat + roused id k o := by
  have hdropped : dropped id k o = 0 := by
    refine if_neg fun hyes => ?_
    cases (Operation.drops?_of_rouses? ho).symm.trans hyes
  have hnow := not_sleepsAtOnce_of_rouses? ho
  obtain ⟨-, hok, hsame⟩ | ⟨hdormant, hok, hthread⟩ := thread?_wakeupThread ht
  · have hroused : roused id k o = 0 := if_neg fun hyes => Bool.false_ne_true (hok.symm.trans hyes.2)
    have hslept : slept id k o = 0 := by
      refine slept_eq_zero hnow fun hasleep hawake => ?_
      rw [hafter, hsame, hasleep] at hawake
      cases hawake
    rw [hafter, hsame, ht] at ht'
    rw [Option.some.inj ht', hroused, hslept, hdropped]
    rfl
  · have hroused : roused id k o = 1 := if_pos ⟨ho, hok⟩
    rw [← hafter, ht'] at hthread
    cases hasleep : k.asleep id with
    | true =>
      rw [hasleep, if_pos rfl] at hthread
      obtain ⟨w, hw, -⟩ := asleep_iff.mp hasleep
      obtain ⟨u, hu, hwait⟩ := waitOf?_eq_some.mp hw
      obtain rfl := Option.some.inj (ht.symm.trans hu)
      have heq : t' = t.unpark 0 := (Option.some.inj hthread).trans (Thread.woken_of_waiting hwait 0)
      have hslept : slept id k o = 1 := by
        refine if_pos (Or.inr ⟨hasleep, ?_, ?_⟩)
        · rw [asleep_eq ht', heq]
          rfl
        · rw [lives_eq ht', heq]
          show (!t.status.dead) = true
          rw [(Bool.or_eq_false_iff.mp hdormant).2]
          rfl
      rw [hroused, hslept, hdropped, heq]
      rfl
    | false =>
      have hslept : slept id k o = 0 :=
        slept_eq_zero hnow fun hyes => absurd (hasleep.symm.trans hyes) Bool.false_ne_true
      rw [hasleep, if_neg Bool.false_ne_true] at hthread
      have hfew : t.wakeups.toNat + 1 < 2 ^ 32 := by
        have hall := hroom ho
        rw [ht] at hall
        exact of_decide_eq_true hall
      rw [Option.some.inj hthread, hroused, hslept, hdropped]
      show (((t.wakeups + 1).toNat : Nat) : Int) + (0 + 0) = _
      rw [UInt32.toNat_add, show (1 : UInt32).toNat = 1 from rfl, Nat.mod_eq_of_lt hfew]
      omega

/-- The books of an operation that drops the saved wakeups. -/
theorem balances_drop (ho : o.drops? k = some id) (hafter : k.after o = (k.cancelWakeup id).kernel)
    (ht : k.thread? id = some t) (ht' : (k.after o).thread? id = some t') :
    (t'.wakeups.toNat : Int) + (slept id k o + dropped id k o) = t.wakeups.toNat + roused id k o := by
  obtain ⟨hresult, hthread⟩ := thread?_cancelWakeup ht
  rw [← hafter, ht'] at hthread
  have hroused : roused id k o = 0 := by
    refine if_neg fun hyes => ?_
    cases (Operation.drops?_of_rouses? hyes.1).symm.trans ho
  have hdropped : dropped id k o = t.wakeups.toNat := by
    unfold dropped
    rw [if_pos ho, hresult]
  have hslept : slept id k o = 0 := by
    refine slept_eq_zero (not_sleepsAtOnce_of_drops? ho) fun hasleep hawake => ?_
    rw [asleep_eq ht', Option.some.inj hthread] at hawake
    cases ((asleep_eq ht).symm.trans hasleep).symm.trans hawake
  rw [Option.some.inj hthread, hroused, hslept, hdropped]
  show (0 : Int) + _ = _
  omega

/-- The books of a sleep. -/
theorem balances_sleep (hc : k.Coherent) (ho : o = .syscall (.sleepThread callbacks))
    (hcurrent : k.current = some id) (ht : k.thread? id = some t) (ht' : (k.after o).thread? id = some t') :
    (t'.wakeups.toNat : Int) + (slept id k o + dropped id k o) = t.wakeups.toNat + roused id k o := by
  subst ho
  have hdropped : dropped id k (.syscall (.sleepThread callbacks)) = 0 := if_neg fun h => (by cases h)
  have hroused : roused id k (.syscall (.sleepThread callbacks)) = 0 := if_neg fun h => (by cases h.1)
  rw [hdropped, hroused]
  obtain ⟨hsaved, hresult, hthread⟩ | ⟨-, hresult, hrest⟩ := thread?_sleepThread hc hcurrent ht callbacks
  · have hslept : slept id k (.syscall (.sleepThread callbacks)) = 1 :=
      if_pos (Or.inl ((sleepsAtOnce_iff hcurrent).mpr ⟨0, hresult⟩))
    have hpos : 1 ≤ t.wakeups := UInt32.le_iff_toNat_le.mpr (UInt32.lt_iff_toNat_lt.mp hsaved)
    have hpos' := UInt32.le_iff_toNat_le.mp hpos
    rw [Option.some.inj (ht'.symm.trans hthread), hslept]
    show (((t.wakeups - 1).toNat : Nat) : Int) + (1 + 0) = _
    rw [UInt32.toNat_sub_of_le _ _ hpos]
    rw [show (1 : UInt32).toNat = 1 from rfl] at hpos' ⊢
    omega
  · have hnow : k.sleepsAtOnce id (.syscall (.sleepThread callbacks)) = false := by
      refine Bool.eq_false_iff.mpr fun hyes => ?_
      obtain ⟨v, hv⟩ := (sleepsAtOnce_iff hcurrent).mp hyes
      exact hresult v hv
    obtain hsame | ⟨hawake, w, -, hthread⟩ := hrest
    · have hkernel : k.after (.syscall (.sleepThread callbacks)) = k := hsame
      have hslept : slept id k (.syscall (.sleepThread callbacks)) = 0 := by
        refine slept_eq_zero hnow fun hasleep hawake => ?_
        rw [hkernel, hasleep] at hawake
        cases hawake
      rw [hkernel, ht] at ht'
      rw [Option.some.inj ht', hslept]
      rfl
    · have hslept : slept id k (.syscall (.sleepThread callbacks)) = 0 :=
        slept_eq_zero hnow fun hyes => absurd (hawake.symm.trans hyes) Bool.false_ne_true
      rw [Option.some.inj (ht'.symm.trans hthread), hslept]
      rfl

/-- **The account of a thread's wakeups is kept by every operation**, while there is room for one more. -/
theorem wakeupAccount_kept (h : k.Rested) (hk : k.Coherent ∧ k.IdsBelow) (hn : k.started.Nodup) (hp : k.Placed [])
    (hroom : k.HasRoom id o) : (wakeupAccount id).Kept id k o where
  opens v hnone hsome := by
    obtain ⟨t', ht', rfl⟩ := Option.map_eq_some_iff.mp hsome
    obtain ⟨hid, hzero, -⟩ := new_after hk hn (Option.map_eq_none_iff.mp hnone) ht'
    exact ⟨hid, by rw [hzero]; rfl⟩
  rests hnone := by
    have ht : k.thread? id = none := Option.map_eq_none_iff.mp hnone
    have hroused : roused id k o = 0 := by
      refine if_neg fun hyes => ?_
      have hok := hyes.2
      rw [wakeupThread, ht] at hok
      cases hok
    have hdropped : dropped id k o = 0 := by
      unfold dropped
      rw [cancelWakeup, ht]
      exact ite_self _
    have hslept : slept id k o = 0 := by
      refine slept_eq_zero (Bool.eq_false_iff.mpr fun hyes => ?_) fun hasleep => ?_
      · obtain ⟨hrouses, -⟩ | ⟨hdrops, -⟩ | ⟨callbacks, rfl, hcurrent⟩ := of_counts? (counts?_of_sleepsAtOnce hyes)
        · cases (not_sleepsAtOnce_of_rouses? hrouses).symm.trans hyes
        · cases (not_sleepsAtOnce_of_drops? hdrops).symm.trans hyes
        · obtain ⟨t, ht', -⟩ := hk.1.current id hcurrent
          cases ht.symm.trans ht'
      · obtain ⟨w, hw, -⟩ := asleep_iff.mp hasleep
        obtain ⟨t, ht', -⟩ := waitOf?_eq_some.mp hw
        cases ht.symm.trans ht'
    refine ⟨hroused, ?_⟩
    show slept id k o + dropped id k o = 0
    omega
  moves v v' hv hv' := by
    obtain ⟨t, ht, rfl⟩ := Option.map_eq_some_iff.mp hv
    obtain ⟨t', ht', rfl⟩ := Option.map_eq_some_iff.mp hv'
    by_cases hcounts : o.counts? k = some id
    · obtain ⟨hrouses, hafter⟩ | ⟨hdrops, hafter⟩ | ⟨callbacks, ho, hcurrent⟩ := of_counts? hcounts
      · exact balances_wakeup hroom hrouses hafter ht ht'
      · exact balances_drop hdrops hafter ht ht'
      · exact balances_sleep hk.1 ho hcurrent ht ht'
    · have hroused : roused id k o = 0 := if_neg fun hyes => hcounts (Operation.counts?_of_rouses? hyes.1)
      have hdropped : dropped id k o = 0 := if_neg fun hyes => hcounts (Operation.counts?_of_drops? hyes)
      have hslept : slept id k o = 0 := by
        refine slept_eq_zero (Bool.eq_false_iff.mpr fun hyes => hcounts (counts?_of_sleepsAtOnce hyes))
          fun hasleep hawake => ?_
        obtain ⟨w, hw, hkind⟩ := asleep_iff.mp hasleep
        obtain hon | ⟨hrouses, -⟩ | hdead := h.sleeps_on (o := o) hk hn hp hw hkind
        · cases hawake.symm.trans (asleep_iff.mpr ⟨w, hon, hkind⟩)
        · exact absurd (Operation.counts?_of_rouses? hrouses) hcounts
        · exact hdead
      show (t'.wakeups.toNat : Int) + (slept id k o + dropped id k o) = t.wakeups.toNat + roused id k o
      rw [wakeups_after hk hn hcounts ht ht', hroused, hdropped, hslept]
      rfl
  unborn hid := by
    refine Option.map_eq_none_iff.mpr (Option.eq_none_iff_forall_ne_some.mpr fun t ht => ?_)
    exact Nat.not_lt.mpr hid (hk.2.thread_lt ht)

/-! ### Runs -/

/-- **Sleepers have no wakeup saved, ever.** -/
theorem rested_run (config : KernelConfig) (memory : Memory) (operations : List Operation)
    (hids : (Kernel.new config memory).handedOut operations < 2 ^ 32 - 1) :
    ((Kernel.new config memory).run operations).Rested := by
  induction operations using List.reverseRecOn with
  | nil =>
    intro id t w ht
    rw [run_nil, thread?, ObjectTable.thread?, get?_new] at ht
    cases ht
  | append_singleton operations op ih =>
    have hids' := Nat.lt_of_le_of_lt (handedOut_le_append _ operations [op]) hids
    rw [run_concat]
    exact (ih hids').after (placed_run config memory operations hids').1 (nodup_started_run config memory operations)

/-- **Wakeups are neither lost nor doubled.** A thread that is asleep has no wakeup saved. Its sleep ends by a wakeup that
succeeds or by its death. The wakeups that have succeeded are the sleeps that have completed, those that are saved, and
those that have been dropped. -/
theorem wakeups_run (config : KernelConfig) (memory : Memory) (operations : List Operation)
    (hids : (Kernel.new config memory).handedOut operations < 2 ^ 32 - 1) (id : ThreadId) (t : Thread)
    (hroom : (Kernel.new config memory).Along (HasRoom id) operations)
    (ht : ((Kernel.new config memory).run operations).thread? id = some t) :
    let k := (Kernel.new config memory).run operations
    (k.asleep id = true → t.wakeups = 0) ∧
      (∀ o w, k.waitOf? id = some w → w.kind = .sleep → (k.after o).waitOf? id = some w ∨
        (o.rouses? k = some id ∧ (k.wakeupThread id).result.isOk = true) ∨ (k.after o).lives id = false) ∧
      (Kernel.new config memory).sumAlong (roused id) operations =
        (Kernel.new config memory).sumAlong (slept id) operations + t.wakeups.toNat +
          (Kernel.new config memory).sumAlong (dropped id) operations := by
  have hrested := rested_run config memory operations hids
  obtain ⟨hk, hp⟩ := placed_run config memory operations hids
  have hn := nodup_started_run config memory operations
  refine ⟨hrested.wakeups_eq_zero ht, fun o w hw hkind => hrested.sleeps_on hk hn hp hw hkind, ?_⟩
  have hkept : (Kernel.new config memory).Along ((wakeupAccount id).Kept id) operations := by
    refine along_of_prefixes fun first o rest heq => ?_
    have hfirst : (Kernel.new config memory).handedOut first < 2 ^ 32 - 1 :=
      Nat.lt_of_le_of_lt (handedOut_le_append _ first (o :: rest)) (heq ▸ hids)
    rw [heq] at hroom
    obtain ⟨hk, hp⟩ := placed_run config memory first hfirst
    exact wakeupAccount_kept (rested_run config memory first hfirst) hk (nodup_started_run config memory first) hp
      (along_append.mp hroom).2.1
  have hnext := nextId_new config memory
  have hempty : (wakeupAccount id).held (Kernel.new config memory) = none := by
    refine Option.map_eq_none_iff.mpr ?_
    rw [thread?, ObjectTable.thread?, get?_new]
  have hbalance := Account.balance hkept (nodup_started_new config memory) (by omega)
    (show (wakeupAccount id).held _ = some (t.wakeups.toNat : Int) from Option.map_eq_some_iff.mpr ⟨t, ht, rfl⟩)
  rw [hempty, Option.getD_none, show (wakeupAccount id).taken = fun k o => slept id k o + dropped id k o from rfl,
    sumAlong_add, show (wakeupAccount id).added = roused id from rfl] at hbalance
  omega

/-- A thread is given three wakeups, uses one and drops two. It is woken from a sleep while it is on hold, uses a wakeup
that comes before its next sleep, and sleeps again. A callback interrupts that sleep and cannot begin another one. -/
def restlessSleeper : List Operation :=
  [.syscall (.createThread "sleeper" 0x08900000 32 0x1000 0), .syscall (.startThread 1 0 0), .dispatch,
    .syscall (.createCallback "notice" 0x08901000 0), .wakeupThread 1, .syscall (.wakeupThread 1), .wakeupThread 1,
    .syscall (.sleepThread false), .cancelWakeup 1, .syscall (.sleepThread false), .suspendThread 1, .wakeupThread 1,
    .resumeThread 1, .dispatch, .wakeupThread 1, .syscall (.sleepThread true), .syscall (.sleepThread true),
    .syscall (.notifyCallback 2 7), .dispatch, .syscall (.sleepThread false)]

/-- The thread has been woken five times, has slept three times and is asleep; the next wakeup ends that sleep. -/
theorem wakeups_run_restlessSleeper :
    let k := (Kernel.new {} {}).run restlessSleeper
    (Kernel.new {} {}).handedOut restlessSleeper < 2 ^ 32 - 1 ∧ (Kernel.new {} {}).Along (HasRoom 1) restlessSleeper ∧
      k.asleep 1 = true ∧ k.delivering.isSome = true ∧ (k.after (.wakeupThread 1)).asleep 1 = false ∧
      (Kernel.new {} {}).sumAlong (roused 1) restlessSleeper = 5 ∧
      (Kernel.new {} {}).sumAlong (slept 1) restlessSleeper = 3 ∧
      (Kernel.new {} {}).sumAlong (dropped 1) restlessSleeper = 2 ∧
      ∃ t, k.thread? 1 = some t ∧ t.wakeups = 0 ∧
        (Kernel.new {} {}).sumAlong (roused 1) restlessSleeper =
          (Kernel.new {} {}).sumAlong (slept 1) restlessSleeper + t.wakeups.toNat +
            (Kernel.new {} {}).sumAlong (dropped 1) restlessSleeper := by
  have hids : (Kernel.new {} {}).handedOut restlessSleeper < 2 ^ 32 - 1 := handedOut_lt (by decide)
  have hroom : (Kernel.new {} {}).Along (HasRoom 1) restlessSleeper := by decide +kernel
  have hasleep : ((Kernel.new {} {}).run restlessSleeper).asleep 1 = true := by decide +kernel
  obtain ⟨w, hw, -⟩ := asleep_iff.mp hasleep
  obtain ⟨t, ht, -⟩ := waitOf?_eq_some.mp hw
  obtain ⟨hnone, -, hsum⟩ := wakeups_run {} {} restlessSleeper hids 1 t hroom ht
  exact ⟨hids, hroom, hasleep, by decide +kernel, by decide +kernel, by decide +kernel, by decide +kernel,
    by decide +kernel, t, ht, hnone hasleep, hsum⟩

end Kernel
end GuestKernel
