/-
# What the ready queue lists

`ReadyQueue.Lists q view` says that `q` is the ready queue of the threads in `view`: it holds each ready thread once and
nobody else, with the thread's own priority, and ascends in priority. Removing a thread, queueing one that was not ready
and taking the head off each keep this, for the view in which that one thread has changed accordingly. In particular a
thread that is not ready is never refused by `insert` (`ReadyQueue.Lists.insert`).

Source: specification, 4.3.
-/

import GuestKernel.Proofs.Lookup
import Mathlib.Data.List.TakeWhile

namespace GuestKernel
namespace ReadyQueue

variable {q : ReadyQueue} {view view' : ThreadId → Option Thread} {id : ThreadId} {t : Thread} {e : ReadyEntry}

/-- The queue holds each ready thread of a view once, and nobody else, by ascending priority. -/
structure Lists (q : ReadyQueue) (view : ThreadId → Option Thread) : Prop where
  nodup : (q.entries.map (·.thread)).Nodup
  sorted : q.entries.Pairwise fun a b => a.priority ≤ b.priority
  sound : ∀ e ∈ q.entries, ∃ t, view e.thread = some t ∧ t.status = .onlyReady ∧ t.priority = e.priority
  complete : ∀ id t, view id = some t → t.status = .onlyReady → ∃ e ∈ q.entries, e.thread = id

theorem contains_eq_true : q.contains id = true ↔ ∃ e ∈ q.entries, e.thread = id := by
  simp [contains]

theorem Lists.empty (h : ∀ id t, view id = some t → t.status ≠ .onlyReady) : Lists {} view where
  nodup := List.nodup_nil
  sorted := List.Pairwise.nil
  sound _ he := absurd he List.not_mem_nil
  complete id t ht hr := absurd hr (h id t ht)

/-- Membership in the queue is decided by the status. -/
theorem Lists.contains_iff (h : q.Lists view) (ht : view id = some t) :
    q.contains id = true ↔ t.status = .onlyReady := by
  rw [contains_eq_true]
  constructor
  · rintro ⟨e, he, rfl⟩
    obtain ⟨t', ht', hr, -⟩ := h.sound e he
    rw [ht] at ht'
    cases ht'
    exact hr
  · exact h.complete id t ht

/-- A thread that is not ready is not in the queue. -/
theorem Lists.not_mem (h : q.Lists view) (h₀ : ∀ t, view id = some t → t.status ≠ .onlyReady) :
    ∀ e ∈ q.entries, e.thread ≠ id := by
  rintro e he rfl
  obtain ⟨t, ht, hr, -⟩ := h.sound e he
  exact h₀ t ht hr

/-- Only the statuses and priorities of the view matter. -/
theorem Lists.congr (h : q.Lists view)
    (hv : ∀ x, (view' x).map (fun t => (t.status, t.priority)) = (view x).map fun t => (t.status, t.priority)) :
    q.Lists view' where
  nodup := h.nodup
  sorted := h.sorted
  sound e he := by
    obtain ⟨t, ht, hr, hp⟩ := h.sound e he
    have hx := hv e.thread
    rw [ht, Option.map_some, Option.map_eq_some_iff] at hx
    obtain ⟨t', ht', heq⟩ := hx
    rw [Prod.mk.injEq] at heq
    exact ⟨t', ht', heq.1.trans hr, heq.2.trans hp⟩
  complete x t' ht' hr := by
    have hx := (hv x).symm
    rw [ht', Option.map_some, Option.map_eq_some_iff] at hx
    obtain ⟨t, ht, heq⟩ := hx
    rw [Prod.mk.injEq] at heq
    exact h.complete x t ht (heq.1.trans hr)

theorem remove_eq_self (h : ∀ e ∈ q.entries, e.thread ≠ id) : q.remove id = q := by
  unfold remove
  rw [List.eraseP_of_forall_not]
  simpa using h

/-- In a queue without repetition a removed thread is gone. -/
theorem mem_remove (hn : (q.entries.map (·.thread)).Nodup) :
    e ∈ (q.remove id).entries ↔ e ∈ q.entries ∧ e.thread ≠ id := by
  obtain ⟨entries⟩ := q
  simp only [remove] at hn ⊢
  induction entries with
  | nil => simp
  | cons a rest ih =>
    rw [List.map_cons, List.nodup_cons] at hn
    by_cases ha : a.thread = id
    · rw [List.eraseP_cons_of_pos (by simpa using ha)]
      constructor
      · intro he
        refine ⟨List.mem_cons_of_mem _ he, fun hid => hn.1 ?_⟩
        rw [ha, ← hid]
        exact List.mem_map_of_mem he
      · rintro ⟨he, hid⟩
        rcases List.mem_cons.mp he with rfl | he
        · exact absurd ha hid
        · exact he
    · rw [List.eraseP_cons_of_neg (by simpa using ha), List.mem_cons, List.mem_cons, ih hn.2]
      constructor
      · rintro (rfl | ⟨he, hid⟩)
        · exact ⟨Or.inl rfl, ha⟩
        · exact ⟨Or.inr he, hid⟩
      · rintro ⟨rfl | he, hid⟩
        · exact Or.inl rfl
        · exact Or.inr ⟨he, hid⟩

/-- Taking a thread out fits any view in which that thread is not ready. -/
theorem Lists.remove (h : q.Lists view) (hv : ∀ x, x ≠ id → view' x = view x)
    (h₁ : ∀ t, view' id = some t → t.status ≠ .onlyReady) : (q.remove id).Lists view' where
  nodup := h.nodup.sublist (List.eraseP_sublist.map _)
  sorted := h.sorted.sublist List.eraseP_sublist
  sound e he := by
    rw [mem_remove h.nodup] at he
    rw [hv _ he.2]
    exact h.sound e he.1
  complete x t ht hr := by
    have hx : x ≠ id := by
      rintro rfl
      exact h₁ t ht hr
    rw [hv x hx] at ht
    obtain ⟨e, he, rfl⟩ := h.complete x t ht hr
    exact ⟨e, (mem_remove h.nodup).mpr ⟨he, hx⟩, rfl⟩

/-- The queue still fits when a thread that is not ready stays that way. -/
theorem Lists.keep (h : q.Lists view) (hv : ∀ x, x ≠ id → view' x = view x)
    (h₀ : ∀ t, view id = some t → t.status ≠ .onlyReady)
    (h₁ : ∀ t, view' id = some t → t.status ≠ .onlyReady) : q.Lists view' := by
  rw [← remove_eq_self (h.not_mem h₀)]
  exact h.remove hv h₁

/-- Entries in front of the slot have a lower value, entries behind it none. -/
theorem priority_of_mem_dropWhile {entries : List ReadyEntry} {priority : UInt32}
    (hs : entries.Pairwise fun a b => a.priority ≤ b.priority)
    (he : e ∈ entries.dropWhile (·.priority < priority)) : priority ≤ e.priority := by
  induction entries with
  | nil => simp at he
  | cons a rest ih =>
    rw [List.pairwise_cons] at hs
    by_cases ha : a.priority < priority
    · rw [List.dropWhile_cons_of_pos (by simpa using ha)] at he
      exact ih hs.2 he
    · rw [List.dropWhile_cons_of_neg (by simpa using ha)] at he
      have hpa : priority ≤ a.priority := UInt32.not_lt.mp ha
      rcases List.mem_cons.mp he with rfl | he
      · exact hpa
      · exact UInt32.le_trans hpa (hs.1 e he)

/-- **Queueing a thread that was not ready succeeds** and fits the view in which it is. -/
theorem Lists.insert (h : q.Lists view) (hv : ∀ x, x ≠ id → view' x = view x)
    (h₀ : ∀ t, view id = some t → t.status ≠ .onlyReady) (ht : view' id = some t)
    (hr : t.status = .onlyReady) : ∃ q', q.insert id t.priority = .ok q' ∧ q'.Lists view' := by
  have hno := h.not_mem h₀
  have hmem : ∀ e, e ∈ q.entries.takeWhile (·.priority < t.priority) ++
      ⟨id, t.priority⟩ :: q.entries.dropWhile (·.priority < t.priority) ↔
        e = ⟨id, t.priority⟩ ∨ e ∈ q.entries := by
    intro e
    rw [List.mem_append, List.mem_cons, or_left_comm, ← List.mem_append, List.takeWhile_append_dropWhile]
  refine ⟨_, if_neg (by simpa [contains] using hno), ?_, ?_, ?_, ?_⟩
  · -- The new entry is the only one of its thread.
    refine (List.perm_middle.map _).nodup_iff.mpr ?_
    rw [List.takeWhile_append_dropWhile, List.map_cons, List.nodup_cons]
    refine ⟨fun hm => ?_, h.nodup⟩
    obtain ⟨e, he, hid⟩ := List.mem_map.mp hm
    exact hno e he hid
  · rw [List.pairwise_append, List.pairwise_cons]
    have hback : ∀ e ∈ q.entries.dropWhile (·.priority < t.priority), t.priority ≤ e.priority :=
      fun e => priority_of_mem_dropWhile h.sorted
    have hfront : ∀ e ∈ q.entries.takeWhile (·.priority < t.priority), e.priority ≤ t.priority :=
      fun e he => UInt32.le_of_lt (by simpa using List.mem_takeWhile_imp he)
    refine ⟨h.sorted.sublist (List.takeWhile_sublist _),
      ⟨hback, h.sorted.sublist (List.dropWhile_sublist _)⟩, fun a ha b hb => ?_⟩
    rcases List.mem_cons.mp hb with rfl | hb
    · exact hfront a ha
    · exact UInt32.le_trans (hfront a ha) (hback b hb)
  · intro e he
    rcases (hmem e).mp he with rfl | he
    · exact ⟨t, ht, hr, rfl⟩
    · rw [hv _ (hno e he)]
      exact h.sound e he
  · intro x t' ht' hr'
    by_cases hx : x = id
    · exact ⟨_, (hmem _).mpr (Or.inl rfl), hx.symm⟩
    · rw [hv x hx] at ht'
      obtain ⟨e, he, rfl⟩ := h.complete x t' ht' hr'
      exact ⟨e, (hmem e).mpr (Or.inr he), rfl⟩

/-- Taking the head off fits any view in which its thread is not ready. -/
theorem Lists.tail {rest : List ReadyEntry} (h : Lists ⟨e :: rest⟩ view) (hv : ∀ x, x ≠ e.thread → view' x = view x)
    (h₁ : ∀ t, view' e.thread = some t → t.status ≠ .onlyReady) : Lists ⟨rest⟩ view' := by
  have hrem : (ReadyQueue.mk (e :: rest)).remove e.thread = ⟨rest⟩ := by
    simp [ReadyQueue.remove]
  rw [← hrem]
  exact h.remove hv h₁

/-- The same entries, which differ in their order at most among those of one priority. -/
def Alike (q q' : ReadyQueue) : Prop :=
  q'.entries.Perm q.entries ∧ q'.entries.map (·.priority) = q.entries.map (·.priority)

/-- **What is listed is determined but for ties.** -/
theorem Lists.alike {q' : ReadyQueue} (h : q.Lists view) (h' : q'.Lists view) : q.Alike q' := by
  have hsub : ∀ {q q' : ReadyQueue}, q.Lists view → q'.Lists view → ∀ e ∈ q.entries, e ∈ q'.entries := by
    intro q q' h h' e he
    obtain ⟨t, ht, hr, hp⟩ := h.sound e he
    obtain ⟨e', he', hid⟩ := h'.complete e.thread t ht hr
    obtain ⟨t', ht', -, hp'⟩ := h'.sound e' he'
    rw [hid, ht, Option.some.injEq] at ht'
    have heq : e = e' := by
      obtain ⟨thread, priority⟩ := e
      obtain ⟨thread', priority'⟩ := e'
      simp only [ReadyEntry.mk.injEq]
      exact ⟨hid.symm, hp.symm.trans ((congrArg Thread.priority ht').trans hp')⟩
    rw [heq]
    exact he'
  have hnodup : ∀ {q : ReadyQueue}, q.Lists view → q.entries.Nodup :=
    fun h => List.Pairwise.of_map _ (fun _ _ hne heq => hne (congrArg _ heq)) h.nodup
  have hperm : q'.entries.Perm q.entries :=
    (List.perm_ext_iff_of_nodup (hnodup h') (hnodup h)).mpr fun e => ⟨hsub h' h e, hsub h h' e⟩
  refine ⟨hperm, (hperm.map _).eq_of_pairwise (fun a b _ _ => UInt32.le_antisymm) ?_ ?_⟩
  · exact List.pairwise_map.mpr h'.sorted
  · exact List.pairwise_map.mpr h.sorted

end ReadyQueue
end GuestKernel
