/-
# Nobody stands in two queues

A thread that stands in a queue waits on that object, and stands there once and nowhere else. Unlike the full agreement
of waits and queues this survives every operation, a failed cancel included: such a call takes threads off a queue and
forgets to wake them, so that a thread may wait and stand in no queue, but it puts nobody into a queue.

`Places` says so for any two functions that stand for the queues and the waits, and for threads in transit, which stand
in no queue. Each move of the kernel leaves the records alone or is one of four steps.

| step | queues | waits |
| --- | --- | --- |
| `release` | entries leave one object | |
| `enter` | a thread in transit enters one object | |
| `begin` | | a thread that does not wait begins to |
| `quit` | | the wait of a thread in no queue ends |

Source: specification, 4.4.
-/

import GuestKernel.Proofs.WaitRecords
import Mathlib.Data.List.Nodup

namespace GuestKernel

/-- Whoever stands in a queue waits there, once; the threads `L` in transit stand in none. -/
structure Places (queues : ObjectId → List (ThreadId × Demand)) (waits : ThreadId → Option Wait)
    (L : List ThreadId) : Prop where
  transit : ∀ id ∈ L, ∀ x, id ∉ (queues x).map (·.1)
  once : ∀ x, ((queues x).map (·.1)).Nodup
  entry : ∀ x, ∀ e ∈ queues x, ∃ w, waits e.1 = some w ∧ w.handle = x ∧ w.Asks e.2

namespace Places

variable {queues queues' : ObjectId → List (ThreadId × Demand)} {waits waits' : ThreadId → Option Wait}
  {L L' : List ThreadId} {id : ThreadId} {w : Wait} {d : Demand} {x : ObjectId}

theorem mono (h : Places queues waits L) (hL : L' ⊆ L) : Places queues waits L' :=
  ⟨fun id hid => h.transit id (hL hid), h.once, h.entry⟩

/-- A thread stands in no other queue than that of the object it waits on. -/
theorem handle_eq (h : Places queues waits L) (hw : waits id = some w)
    (hmem : id ∈ (queues x).map (·.1)) : w.handle = x ∧ w.kind ≠ .sleep ∧ w.kind ≠ .delay := by
  obtain ⟨e, he, rfl⟩ := List.mem_map.mp hmem
  obtain ⟨w', hw', hhandle, hasks⟩ := h.entry x e he
  rw [hw, Option.some.injEq] at hw'
  subst hw'
  exact ⟨hhandle, hasks.kind_ne⟩

theorem not_mem (h : Places queues waits L) (hnone : waits id = none) (x : ObjectId) : id ∉ (queues x).map (·.1) := by
  intro hmem
  obtain ⟨e, he, rfl⟩ := List.mem_map.mp hmem
  obtain ⟨w, hw, -⟩ := h.entry x e he
  rw [hnone] at hw
  cases hw

theorem subset_of_release {gone : List (ThreadId × Demand)} (hx : (queues x).Perm (gone ++ queues' x))
    (hframe : ∀ y, y ≠ x → queues' y = queues y) (y : ObjectId) : queues' y ⊆ queues y := by
  intro e he
  by_cases hy : y = x
  · subst hy
    exact hx.mem_iff.mpr (List.mem_append_right _ he)
  · exact hframe y hy ▸ he

/-- Entries leave the queues of an object. -/
theorem release (h : Places queues waits L) (x : ObjectId) (gone : List (ThreadId × Demand))
    (hx : (queues x).Perm (gone ++ queues' x)) (hframe : ∀ y, y ≠ x → queues' y = queues y) :
    Places queues' waits (gone.map (·.1) ++ L) := by
  have hmap : ((queues x).map (·.1)).Perm (gone.map (·.1) ++ (queues' x).map (·.1)) := by
    rw [← List.map_append]
    exact hx.map _
  have hdisjoint := List.nodup_append.mp (hmap.nodup (h.once x))
  have hsub := subset_of_release hx hframe
  refine ⟨fun id hid y hy => ?_, fun y => ?_, fun y e he => h.entry y e (hsub y he)⟩
  · rcases List.mem_append.mp hid with hid | hid
    · by_cases hyx : y = x
      · subst hyx
        exact hdisjoint.2.2 id hid id hy rfl
      · -- The thread waits on one object only.
        obtain ⟨e, he, rfl⟩ := List.mem_map.mp hid
        obtain ⟨w, hw, hhandle, -⟩ := h.entry x e (hx.mem_iff.mpr (List.mem_append_left _ he))
        exact hyx ((h.handle_eq hw (List.map_subset _ (hsub y) hy)).1.symm.trans hhandle)
    · exact h.transit id hid y (List.map_subset _ (hsub y) hy)
  · by_cases hy : y = x
    · subst hy
      exact hdisjoint.2.1
    · rw [hframe y hy]
      exact h.once y

/-- A parked thread enters the queue of the object that it waits on. -/
theorem enter (h : Places queues waits [id]) (hw : waits id = some w) (hasks : w.Asks d)
    (hx : (queues' w.handle).Perm ((id, d) :: queues w.handle)) (hframe : ∀ y, y ≠ w.handle → queues' y = queues y) :
    Places queues' waits [] := by
  have hout := h.transit id (List.mem_singleton_self id)
  have hmap : ((queues' w.handle).map (·.1)).Perm (id :: (queues w.handle).map (·.1)) := hx.map (·.1)
  refine ⟨nofun, fun y => ?_, fun y e he => ?_⟩
  · by_cases hy : y = w.handle
    · subst hy
      exact hmap.symm.nodup (List.nodup_cons.mpr ⟨hout _, h.once _⟩)
    · rw [hframe y hy]
      exact h.once y
  · by_cases hy : y = w.handle
    · subst hy
      rcases List.mem_cons.mp (hx.mem_iff.mp he) with rfl | he
      · exact ⟨w, hw, rfl, hasks⟩
      · exact h.entry _ e he
    · exact h.entry y e (hframe y hy ▸ he)

/-- The wait of a thread that stands in no queue begins or ends. -/
theorem quit (h : Places queues waits L) (hout : ∀ x, id ∉ (queues x).map (·.1))
    (hframe : ∀ y, y ≠ id → waits' y = waits y) : Places queues waits' L := by
  refine ⟨h.transit, h.once, fun x e he => ?_⟩
  rw [hframe e.1 fun heq => hout x (heq ▸ List.mem_map_of_mem he)]
  exact h.entry x e he

/-- A thread that does not wait begins to. -/
theorem begin (h : Places queues waits L) (hnone : waits id = none) (hframe : ∀ y, y ≠ id → waits' y = waits y) :
    Places queues waits' (id :: L) := by
  have hout := h.not_mem hnone
  have hquit := h.quit hout hframe
  refine ⟨fun y hy => ?_, hquit.once, hquit.entry⟩
  rcases List.mem_cons.mp hy with rfl | hy
  · exact hout
  · exact h.transit y hy

end Places

namespace Kernel

variable {k k' : Kernel} {L : List ThreadId} {id : ThreadId} {t : Thread} {w : Wait} {x : ObjectId}

/-- Whoever stands in a queue waits there, once, and the threads in transit stand in none. -/
def Placed (k : Kernel) (L : List ThreadId) : Prop := Places k.queues k.waitOf? L

namespace Placed

theorem mono (h : k.Placed L) {L' : List ThreadId} (hL : L' ⊆ L) : k.Placed L' := Places.mono h hL

/-- Nobody stands twice in the queues of an object. -/
theorem nodup_waiting (h : k.Placed L) {o : Object} (ho : k.objects.get? x = some o) : o.waiting.Nodup := by
  have honce := Places.once h x
  rwa [queues_of_get? ho, Object.map_entries] at honce

/-- Whoever stands in a queue of an object waits on it. -/
theorem waits (h : k.Placed L) {o : Object} (ho : k.objects.get? x = some o) (hid : id ∈ o.waiting) :
    ∃ t w, k.thread? id = some t ∧ t.wait = some w ∧ w.handle = x := by
  rw [← Object.map_entries, List.mem_map] at hid
  obtain ⟨e, he, rfl⟩ := hid
  obtain ⟨w, hw, hhandle, -⟩ := Places.entry h x e (queues_of_get? ho ▸ he)
  obtain ⟨t, ht, hwait⟩ := waitOf?_eq_some.mp hw
  exact ⟨t, w, ht, hwait, hhandle⟩

theorem sameRecords (h : k.Placed L) (hs : SameRecords k k') : k'.Placed L := by
  unfold Placed
  rw [funext hs.queues, funext hs.waits]
  exact h

theorem release {gone : List (ThreadId × Demand)} (h : k.Placed L) (hr : Releases k k' x gone) :
    k'.Placed (gone.map (·.1) ++ L) := by
  unfold Placed
  rw [funext hr.waits]
  exact Places.release h x gone hr.entries hr.frame

theorem enter {d : Demand} (h : k.Placed [id]) (hw : k.waitOf? id = some w) (hasks : w.Asks d)
    (he : Enters k k' w.handle id d) : k'.Placed [] := by
  unfold Placed
  rw [funext he.waits]
  exact Places.enter h hw hasks he.entries he.frame

theorem begin {wait : Option Wait} (h : k.Placed L) (hnone : k.waitOf? id = none) (hr : Rewaits k k' id wait) :
    k'.Placed (id :: L) := by
  unfold Placed
  rw [funext hr.queues]
  exact Places.begin h hnone hr.frame

theorem quit {wait : Option Wait} (h : k.Placed (id :: L)) (hr : Rewaits k k' id wait) : k'.Placed L := by
  unfold Placed
  rw [funext hr.queues]
  exact (Places.quit h (Places.transit h id (List.mem_cons_self ..)) hr.frame).mono (List.subset_cons_self id L)

/-- A thread whose wait ends by itself leaves its queue, if it stands in one. -/
theorem detach (h : k.Placed []) (hw : k.waitOf? id = some w) : (k.detach id w).Placed [id] := by
  obtain ⟨hwhy, hs⟩ | ⟨gone, hr, hoff⟩ := detach_records (Places.once h w.handle) id
  · refine sameRecords (k := k) ⟨fun y hy x hx => ?_, Places.once h, Places.entry h⟩ hs
    rw [List.mem_singleton.mp hy] at hx
    obtain ⟨hhandle, hsleep, hdelay⟩ := Places.handle_eq h hw hx
    rcases hwhy with hkind | hkind | hout
    · exact hsleep hkind
    · exact hdelay hkind
    · exact hout (hhandle ▸ hx)
  · exact (h.release hr).mono fun y hy => List.mem_append_left _ (hoff.mem_iff.mp hy)

/-- A thread in transit is woken; if it is unknown or does not wait, nothing happens. -/
theorem wake (h : k.Placed (id :: L)) (result : Int32) : (k.wake id result).Placed L := by
  obtain ⟨e, heq, -⟩ | ⟨t, w, rfl, ht, hw⟩ := wake_cases k id result
  · rw [heq]
    exact (h.mono (List.subset_cons_self id L)).sameRecords (.of_objects rfl)
  · exact h.quit (rewaits_wake ht hw result)

/-- A thread that stands in no queue but its own dies, and those that joined it are in transit. -/
theorem fell (h : k.Placed L) (ht : k.thread? t.id = some t)
    (hout : ∀ x, x ≠ t.id → t.id ∉ (k.queues x).map (·.1)) (exitCode : Int32) :
    (k.fell t exitCode).Placed (t.exitWaiters ++ L) := by
  have hjoined : Places (k.fell t exitCode).queues k.waitOf? (t.exitWaiters ++ L) := by
    rw [← queues_of_thread? ht]
    refine Places.release h t.id _ ?_ fun y hy => ?_
    · rw [queues_fell, if_pos rfl, List.append_nil]
    · rw [queues_fell, if_neg fun heq => hy heq.symm]
  have hgone : ∀ x, t.id ∉ ((k.fell t exitCode).queues x).map (·.1) := by
    intro x hx
    rw [queues_fell] at hx
    split at hx
    · cases hx
    · next hne => exact hout x (Ne.symm hne) hx
  refine hjoined.quit hgone fun y hy => ?_
  rw [waitOf?_fell, if_neg fun heq => hy heq.symm]

/-- Whoever waited for the end of a thread is in transit when it ends. -/
theorem retire (h : k.Placed []) (ht : k.thread? t.id = some t) (exitCode : Int32) :
    (k.retire t exitCode).Placed t.exitWaiters := by
  have hjoined : ∀ L, t.exitWaiters ⊆ t.exitWaiters ++ L := fun L => List.subset_append_left _ _
  obtain ⟨hnone, heq⟩ | ⟨w, hw, heq⟩ := retire_eq k t exitCode <;> rw [heq]
  · have hwait : k.waitOf? t.id = none := by rw [waitOf?, ht, Option.bind_some, hnone]
    exact (h.fell ht (fun x _ => Places.not_mem h hwait x) exitCode).mono (hjoined _)
  · have hwait : k.waitOf? t.id = some w := waitOf?_eq_some.mpr ⟨t, ht, hw⟩
    by_cases hself : w.kind ≠ .sleep ∧ w.kind ≠ .delay ∧ t.id = w.handle
    · -- A thread that waited on itself would leave its queue by dying.
      have hout : ∀ x, x ≠ t.id → t.id ∉ (k.queues x).map (·.1) := fun x hx hmem =>
        hx ((Places.handle_eq h hwait hmem).1.symm.trans hself.2.2.symm)
      have hnobody : (k.fell t exitCode).detach t.id w = (k.fell t exitCode).note (.waiterNotQueued t.id w.handle) := by
        have hget : (k.fell t exitCode).objects.get? w.handle = some (.thread (t.die exitCode)) :=
          (ObjectTable.get?_put ..).trans (if_pos hself.2.2)
        unfold Kernel.detach
        rw [if_neg (not_or.mpr ⟨hself.1, hself.2.1⟩), hget]
        rfl
      rw [hnobody]
      exact ((h.fell ht hout exitCode).mono (hjoined _)).sameRecords (.of_objects rfl)
    · have hne : w.kind ≠ .sleep → w.kind ≠ .delay → t.id ≠ w.handle :=
        fun hsleep hdelay hid => hself ⟨hsleep, hdelay, hid⟩
      have hdetach := h.detach hwait
      rw [detach_fell hne]
      refine (hdetach.fell (thread?_detach_self hne ht) (fun x _ => ?_) exitCode).mono (hjoined _)
      exact Places.transit hdetach t.id (List.mem_singleton_self _) x

/-- **Each move keeps everybody in one queue at most.** -/
theorem step {l : Label} {s s' : Stage} (h : s.kernel.Placed s.transit) (hc : s.kernel.Coherent)
    (hfresh : l.Fresh s.kernel) (hm : Move l s s') : s'.kernel.Placed s'.transit := by
  have hsame := hm.sameRecords hfresh
  cases hm with
  | @erase k o ho hkind =>
    have hr : Releases k { k with objects := k.objects.erase o.id } o.id o.entries :=
      releases_erase ho (waitOf?_of_kind_ne ho hkind) rfl
    have herase := h.release hr
    rwa [Object.map_entries, List.append_nil] at herase
  | change ho hchange =>
    obtain ⟨gone, hr, hoff⟩ := releases_change ho hchange
    exact (h.release hr).mono fun y hy => List.mem_append_left _ (hoff.mem_iff.mp hy)
  | enqueue ho ht hw hq =>
    obtain ⟨d, hasks, he⟩ := enters_enqueue ho hq
    exact h.enter (waitOf?_eq_some.mpr ⟨_, ht, hw⟩) hasks he
  | @park k t w hd hcur ht =>
    refine h.begin ?_ (rewaits_park ht w)
    rw [waitOf?, ht, Option.bind_some]
    exact (hc.threads t.id t ht).wait_eq_none (by rw [hc.runs hd hcur ht]; rfl)
  | doze => exact h.mono (List.nil_subset _)
  | detach ht hw => exact h.detach (waitOf?_eq_some.mpr ⟨_, ht, hw⟩)
  | wake => exact h.wake _
  | retire ht => exact h.retire ht _
  | bury ht hd => exact (h.release (releases_bury hc ht hd rfl)).mono (List.subset_append_right _ _)
  | _ => exact h.sameRecords (hsame trivial)

end Placed

theorem placed_new (config : KernelConfig) (memory : Memory) : (Kernel.new config memory).Placed [] := by
  refine ⟨fun y hy => absurd hy List.not_mem_nil, fun x => ?_, fun x e he => ?_⟩
  · rw [queues_new]
    exact List.nodup_nil
  · rw [queues_new] at he
    cases he

/-- **Nobody stands in two queues in any reachable state**, as long as ids have not run out. -/
theorem placed_run (config : KernelConfig) (memory : Memory) (operations : List Operation)
    (h : (Kernel.new config memory).handedOut operations < 2 ^ 32 - 1) :
    (((Kernel.new config memory).run operations).Coherent ∧ ((Kernel.new config memory).run operations).IdsBelow) ∧
      ((Kernel.new config memory).run operations).Placed [] := by
  refine reachable_keeps (P := fun k => k.Placed []) h (placed_new config memory) fun k o hc hn hbound hplaced => ?_
  obtain ⟨-, L, hplaced', -⟩ := preserved_after (P := fun s => s.kernel.Placed s.transit) hc hn hbound
    (fun l s s' hc hfresh hm hs => hs.step hc hfresh hm) hplaced
  exact hplaced'.mono (List.nil_subset L)

end Kernel
end GuestKernel
