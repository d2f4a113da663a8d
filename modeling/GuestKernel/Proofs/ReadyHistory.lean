/-
# What the ready queue remembers

A ready queue that was empty at first is what its calls have made of it, and the calls say everything about it: who is in
it, and in which order. An entry is there since the call that inserted it (`StandsSince`), as long as no call since then
has taken its thread out.

| call | takes out |
| --- | --- |
| `insert` | nobody |
| `remove` | the thread that it names |
| `popHead` | the thread that it answers |

Entries stand by ascending priority value, and of one value the latest insertion stands first. A thread may come back with
another priority after it has left; what counts is the insertion since which it stands (`readyHistory_run`).

Source: specification, 4.3 and 8.
-/

import GuestKernel.Proofs.ReadyOrder
import Mathlib.Data.List.Induction

namespace GuestKernel

/-- A call on a ready queue. -/
inductive ReadyCall where
  | insert (thread : ThreadId) (priority : UInt32)
  | remove (thread : ThreadId)
  | popHead
deriving DecidableEq

namespace ReadyQueue

variable {q : ReadyQueue} {calls : List ReadyCall} {call : ReadyCall} {e : ReadyEntry} {n : Nat} {thread : ThreadId}
  {m : Nat}

/-- The queue after a call; an insertion that is refused leaves it as it is. -/
def after (q : ReadyQueue) : ReadyCall → ReadyQueue
  | .insert thread priority =>
    match q.insert thread priority with
    | .ok q' => q'
    | .error _ => q
  | .remove thread => q.remove thread
  | .popHead => q.tail

/-- The queue after calls in order. -/
def run (q : ReadyQueue) (calls : List ReadyCall) : ReadyQueue := calls.foldl after q

/-- The thread that a call takes out: the one that it names, or the one that it answers. -/
def leaver? (q : ReadyQueue) : ReadyCall → Option ThreadId
  | .insert .. => none
  | .remove thread => some thread
  | .popHead => q.head?.map (·.thread)

/-- The entry was put into a queue that was empty at first by the call after `n` others, and no call since then has taken
its thread out. -/
structure StandsSince (calls : List ReadyCall) (e : ReadyEntry) (n : Nat) : Prop where
  insertion : calls[n]? = some (.insert e.thread e.priority)
  succeeds : ((run {} (calls.take n)).insert e.thread e.priority).isOk = true
  stays : ∀ m call, n < m → calls[m]? = some call → (run {} (calls.take m)).leaver? call ≠ some e.thread

theorem run_concat (q : ReadyQueue) (calls : List ReadyCall) (call : ReadyCall) :
    q.run (calls ++ [call]) = (q.run calls).after call := by
  rw [run, List.foldl_append]
  rfl

/-! ### One call -/

theorem insert_of_contains (h : q.contains thread = true) (priority : UInt32) :
    q.insert thread priority = .error (.alreadyScheduled thread) := if_pos h

theorem insert_of_absent (h : q.contains thread = false) (priority : UInt32) :
    q.insert thread priority = .ok ⟨q.entries.takeWhile (·.priority < priority) ++
      ⟨thread, priority⟩ :: q.entries.dropWhile (·.priority < priority)⟩ :=
  if_neg (Bool.eq_false_iff.mp h)

/-- Who is in the queue is not queued again. -/
theorem isOk_insert (thread : ThreadId) (priority : UInt32) :
    (q.insert thread priority).isOk = true ↔ q.contains thread = false := by
  cases h : q.contains thread with
  | true => simp [insert_of_contains h, Except.isOk, Except.toBool]
  | false => simp [insert_of_absent h, Except.isOk, Except.toBool]

/-- An insertion that is refused changes nothing. -/
theorem after_insert_of_contains (h : q.contains thread = true) (priority : UInt32) :
    q.after (.insert thread priority) = q := by
  rw [after, insert_of_contains h]

/-- Whoever is queued goes before its equals. -/
theorem entries_after_insert (h : q.contains thread = false) (priority : UInt32) :
    (q.after (.insert thread priority)).entries = q.entries.takeWhile (·.priority < priority) ++
      ⟨thread, priority⟩ :: q.entries.dropWhile (·.priority < priority) := by
  rw [after, insert_of_absent h]

/-- In a queue without repetition, to take a thread out is to leave the others as they stand. -/
theorem entries_remove (hn : (q.entries.map (·.thread)).Nodup) (thread : ThreadId) :
    (q.remove thread).entries = q.entries.filter (·.thread != thread) := by
  obtain ⟨entries⟩ := q
  simp only [remove] at hn ⊢
  induction entries with
  | nil => rfl
  | cons a rest ih =>
    rw [List.map_cons, List.nodup_cons] at hn
    by_cases ha : a.thread = thread
    · rw [List.eraseP_cons_of_pos (by simpa using ha), List.filter_cons_of_neg (by simpa using ha)]
      refine (List.filter_eq_self.mpr fun e he => bne_iff_ne.mpr fun heq => hn.1 ?_).symm
      exact List.mem_map.mpr ⟨e, he, heq.trans ha.symm⟩
    · rw [List.eraseP_cons_of_neg (by simpa using ha), List.filter_cons_of_pos (by simpa using ha), ih hn.2]

/-- The queue is its head and what stands behind it. -/
theorem entries_eq_head_tail (q : ReadyQueue) : q.entries = q.head?.toList ++ q.tail.entries := by
  obtain ⟨_ | ⟨e, rest⟩⟩ := q <;> rfl

/-- Taking the head off is removing its thread. -/
theorem tail_eq_remove (h : q.head? = some e) : q.tail = q.remove e.thread := by
  obtain ⟨_ | ⟨a, rest⟩⟩ := q
  · cases h
  · cases h
    simp [tail, remove]

/-- A call that takes a thread out leaves the others as they stand, and one that takes nobody out and inserts nobody
leaves the queue as it is. -/
theorem entries_after_leaver (hn : (q.entries.map (·.thread)).Nodup) (hcall : ∀ t p, call ≠ .insert t p) :
    (q.after call).entries = q.entries.filter fun e => q.leaver? call != some e.thread := by
  have hleaver : ∀ t : ThreadId, q.entries.filter (fun e => some t != some e.thread) =
      q.entries.filter (·.thread != t) := fun t => List.filter_congr fun e _ => by simp [bne, eq_comm]
  cases call with
  | insert thread priority => exact absurd rfl (hcall thread priority)
  | remove thread => exact (entries_remove hn thread).trans (hleaver thread).symm
  | popHead =>
    cases hhead : q.head? with
    | none =>
      have hempty : q.entries = [] := List.head?_eq_none_iff.mp hhead
      rw [hempty]
      exact congrArg List.tail hempty
    | some e =>
      rw [after, tail_eq_remove hhead, entries_remove hn, leaver?, hhead]
      exact (hleaver e.thread).symm

/-- **Who is in the queue after a call**: those that the call did not take out, and the one that it inserted. -/
theorem mem_entries_after (hn : (q.entries.map (·.thread)).Nodup) (call : ReadyCall) (e : ReadyEntry) :
    e ∈ (q.after call).entries ↔ (e ∈ q.entries ∧ q.leaver? call ≠ some e.thread) ∨
      (call = .insert e.thread e.priority ∧ (q.insert e.thread e.priority).isOk = true) := by
  by_cases hcall : ∀ t p, call ≠ .insert t p
  · rw [entries_after_leaver hn hcall, List.mem_filter, bne_iff_ne]
    exact ⟨Or.inl, fun h => h.resolve_right fun hins => hcall _ _ hins.1⟩
  push Not at hcall
  obtain ⟨thread, priority, rfl⟩ := hcall
  have hnobody : q.leaver? (.insert thread priority) ≠ some e.thread := (Option.some_ne_none _).symm
  cases hc : q.contains thread with
  | true =>
    rw [after_insert_of_contains hc]
    refine ⟨fun he => Or.inl ⟨he, hnobody⟩, fun h => ?_⟩
    rcases h with ⟨he, -⟩ | ⟨heq, hok⟩
    · exact he
    · cases heq
      rw [isOk_insert, hc] at hok
      cases hok
  | false =>
    rw [entries_after_insert hc, List.mem_append, List.mem_cons, or_left_comm, ← List.mem_append,
      List.takeWhile_append_dropWhile]
    constructor
    · rintro (rfl | he)
      · exact Or.inr ⟨rfl, (isOk_insert _ _).mpr hc⟩
      · exact Or.inl ⟨he, hnobody⟩
    · rintro (⟨he, -⟩ | ⟨heq, -⟩)
      · exact Or.inr he
      · cases heq
        exact Or.inl rfl

/-! ### Calls in order -/

theorem StandsSince.lt (h : StandsSince calls e n) : n < calls.length :=
  (List.getElem?_eq_some_iff.mp h.insertion).1

/-- An entry that stands at the end stood all the time since. -/
theorem StandsSince.take (h : StandsSince calls e n) (hnm : n < m) : StandsSince (calls.take m) e n := by
  have hsooner : ∀ {i}, i < m → (calls.take m)[i]? = calls[i]? := fun hi => List.getElem?_take_of_lt hi
  have htake : ∀ {i}, i < m → (calls.take m).take i = calls.take i := fun hi => by
    rw [List.take_take, Nat.min_eq_left hi.le]
  refine ⟨?_, ?_, fun i call hi hcall => ?_⟩
  · rw [hsooner hnm]
    exact h.insertion
  · rw [htake hnm]
    exact h.succeeds
  · have him : i < m := by
      have hlt := (List.getElem?_eq_some_iff.mp hcall).1
      rw [List.length_take] at hlt
      omega
    rw [htake him]
    exact h.stays i call hi ((hsooner him).symm.trans hcall)

/-- **One more call**: an entry goes on standing unless its thread is taken out, and the call may insert another. -/
theorem standsSince_concat : StandsSince (calls ++ [call]) e n ↔
    (StandsSince calls e n ∧ (run {} calls).leaver? call ≠ some e.thread) ∨
      (n = calls.length ∧ call = .insert e.thread e.priority ∧
        ((run {} calls).insert e.thread e.priority).isOk = true) := by
  have hlast : (calls ++ [call])[calls.length]? = some call := List.getElem?_concat_length
  have hearlier : ∀ {m}, m < calls.length → (calls ++ [call])[m]? = calls[m]? :=
    fun hm => List.getElem?_append_left hm
  have htake : ∀ {m}, m ≤ calls.length → (calls ++ [call]).take m = calls.take m :=
    fun hm => List.take_append_of_le_length hm
  constructor
  · intro h
    have hlt : n < calls.length + 1 := by simpa using h.lt
    rcases Nat.lt_succ_iff_lt_or_eq.mp hlt with hn | rfl
    · have hbefore := h.take hn
      have hstays := h.stays calls.length call hn hlast
      rw [htake le_rfl, List.take_length] at hbefore hstays
      exact Or.inl ⟨hbefore, hstays⟩
    · refine Or.inr ⟨rfl, Option.some.inj (hlast.symm.trans h.insertion), ?_⟩
      have hsucceeds := h.succeeds
      rwa [htake le_rfl, List.take_length] at hsucceeds
  · rintro (⟨h, hstays⟩ | ⟨rfl, rfl, hsucceeds⟩)
    · refine ⟨?_, ?_, fun m c hm hc => ?_⟩
      · rw [hearlier h.lt]
        exact h.insertion
      · rw [htake h.lt.le]
        exact h.succeeds
      · have hmc : m < calls.length + 1 := by simpa using (List.getElem?_eq_some_iff.mp hc).1
        rcases Nat.lt_succ_iff_lt_or_eq.mp hmc with hmc | rfl
        · rw [htake hmc.le]
          exact h.stays m c hm ((hearlier hmc).symm.trans hc)
        · rw [htake le_rfl, List.take_length, Option.some.inj (hc.symm.trans hlast)]
          exact hstays
    · refine ⟨hlast, ?_, fun m c hm hc => ?_⟩
      · rwa [htake le_rfl, List.take_length]
      · have hmc : m < calls.length + 1 := by simpa using (List.getElem?_eq_some_iff.mp hc).1
        omega

/-- An entry that was in the queue stands since the call that it stood since before. -/
theorem standsSince_of_mem (he : e ∈ (run {} calls).entries) (hs : StandsSince (calls ++ [call]) e n) :
    StandsSince calls e n := by
  rcases standsSince_concat.mp hs with ⟨hold, -⟩ | ⟨-, -, hok⟩
  · exact hold
  · rw [isOk_insert, contains] at hok
    exact absurd (List.any_eq_false.mp hok e he) (by simp)

/-- Who stands before whom: the lower priority value, and of equals the one that came later. -/
def Ahead (calls : List ReadyCall) (a b : ReadyEntry) : Prop :=
  ∀ m n, StandsSince calls a m → StandsSince calls b n →
    a.priority < b.priority ∨ (a.priority = b.priority ∧ n < m)

/-- Those who were in the queue stand to each other as they stood. -/
theorem Ahead.concat {a b : ReadyEntry} (hab : Ahead calls a b) (ha : a ∈ (run {} calls).entries)
    (hb : b ∈ (run {} calls).entries) : Ahead (calls ++ [call]) a b :=
  fun m n hm hn => hab m n (standsSince_of_mem ha hm) (standsSince_of_mem hb hn)

/-- The queue holds every thread at most once, those that stand since some call, and in their order. -/
structure Recounts (calls : List ReadyCall) (q : ReadyQueue) : Prop where
  nodup : (q.entries.map (·.thread)).Nodup
  mem_iff : ∀ e, e ∈ q.entries ↔ ∃ n, StandsSince calls e n
  ordered : q.entries.Pairwise (Ahead calls)

namespace Recounts

/-- The queue is sorted by priority, whatever calls led to it. -/
theorem sorted (h : Recounts calls q) : q.entries.Pairwise fun a b => a.priority ≤ b.priority := by
  refine h.ordered.imp_of_mem fun {a b} ha hb hab => ?_
  obtain ⟨m, hm⟩ := (h.mem_iff a).mp ha
  obtain ⟨n, hn⟩ := (h.mem_iff b).mp hb
  rcases hab m n hm hn with hlt | ⟨heq, -⟩
  · exact UInt32.le_of_lt hlt
  · exact UInt32.le_of_eq heq

theorem empty : Recounts [] {} where
  nodup := List.nodup_nil
  mem_iff _ := ⟨fun he => absurd he List.not_mem_nil, fun ⟨_, h⟩ => absurd h.lt (Nat.not_lt_zero _)⟩
  ordered := List.Pairwise.nil

/-- **A new entry comes in front of the entries that are not better**, and came later than all of them. -/
theorem ordered_insert (h : Recounts calls (run {} calls)) {thread : ThreadId} {priority : UInt32}
    (hc : (run {} calls).contains thread = false) :
    ((run {} calls).after (.insert thread priority)).entries.Pairwise (Ahead (calls ++ [.insert thread priority])) := by
  rw [entries_after_insert hc]
  have hfront : ∀ a ∈ (run {} calls).entries.takeWhile (·.priority < priority), a.priority < priority :=
    fun a ha => by simpa using List.mem_takeWhile_imp ha
  have hback : ∀ b ∈ (run {} calls).entries.dropWhile (·.priority < priority), priority ≤ b.priority :=
    fun b => priority_of_mem_dropWhile h.sorted
  have hsplit : (run {} calls).entries = (run {} calls).entries.takeWhile (·.priority < priority) ++
      (run {} calls).entries.dropWhile (·.priority < priority) := List.takeWhile_append_dropWhile.symm
  have hordered : (run {} calls).entries.Pairwise (Ahead (calls ++ [.insert thread priority])) :=
    h.ordered.imp_of_mem fun ha hb hab => hab.concat ha hb
  rw [hsplit, List.pairwise_append] at hordered
  obtain ⟨hin, hout, hcross⟩ := hordered
  refine List.pairwise_append.mpr ⟨hin, List.pairwise_cons.mpr ⟨fun b hb m n hm hn => ?_, hout⟩, fun a ha b hb => ?_⟩
  · -- Whoever was there came by an earlier call than the last one.
    have hmem : b ∈ (run {} calls).entries := (List.dropWhile_sublist _).subset hb
    have hearlier := (standsSince_of_mem hmem hn).lt
    have hnew : m = calls.length := by
      rcases standsSince_concat.mp hm with ⟨hold, -⟩ | ⟨hlast, -⟩
      · have hthere := contains_eq_true.mpr ⟨_, (h.mem_iff _).mpr ⟨m, hold⟩, rfl⟩
        rw [hc] at hthere
        cases hthere
      · exact hlast
    rcases UInt32.lt_or_eq_of_le (hback b hb) with hlt | heq
    · exact Or.inl hlt
    · exact Or.inr ⟨heq, by omega⟩
  · rcases List.mem_cons.mp hb with rfl | hb
    · exact fun _ _ _ _ => Or.inl (hfront a ha)
    · exact hcross a ha b hb

/-- **Every call keeps the account.** -/
theorem concat (h : Recounts calls (run {} calls)) (call : ReadyCall) :
    Recounts (calls ++ [call]) ((run {} calls).after call) := by
  have hmem : ∀ e, e ∈ ((run {} calls).after call).entries ↔ ∃ n, StandsSince (calls ++ [call]) e n := by
    intro e
    rw [mem_entries_after h.nodup, h.mem_iff]
    simp only [standsSince_concat, exists_or, exists_and_right, exists_eq, true_and]
  by_cases hcall : ∀ t p, call ≠ .insert t p
  · have hsub : ((run {} calls).after call).entries.Sublist (run {} calls).entries := by
      rw [entries_after_leaver h.nodup hcall]
      exact List.filter_sublist
    refine ⟨h.nodup.sublist (hsub.map _), hmem, ?_⟩
    exact (h.ordered.imp_of_mem fun ha hb hab => hab.concat ha hb).sublist hsub
  push Not at hcall
  obtain ⟨thread, priority, rfl⟩ := hcall
  cases hc : (run {} calls).contains thread with
  | true =>
    rw [after_insert_of_contains hc] at hmem ⊢
    exact ⟨h.nodup, hmem, h.ordered.imp_of_mem fun ha hb hab => hab.concat ha hb⟩
  | false =>
    refine ⟨?_, hmem, h.ordered_insert hc⟩
    rw [entries_after_insert hc]
    refine (List.perm_middle.map _).nodup_iff.mpr ?_
    rw [List.takeWhile_append_dropWhile, List.map_cons, List.nodup_cons]
    refine ⟨fun hthread => ?_, h.nodup⟩
    obtain ⟨e, he, heq⟩ := List.mem_map.mp hthread
    rw [contains_eq_true.mpr ⟨e, he, heq⟩] at hc
    cases hc

end Recounts

theorem recounts_run (calls : List ReadyCall) : Recounts calls (run {} calls) := by
  induction calls using List.reverseRecOn with
  | nil => exact .empty
  | append_singleton calls call ih =>
    rw [run_concat]
    exact ih.concat call

/-- **Nobody stands since two calls**: to insert a thread that stands already is refused. -/
theorem StandsSince.unique (hm : StandsSince calls e m) (hn : StandsSince calls e n) : m = n := by
  have hrefused : ∀ {i j}, StandsSince calls e i → StandsSince calls e j → ¬ i < j := fun {i j} hi hj hij => by
    have hthere : e ∈ (run {} (calls.take j)).entries := ((recounts_run _).mem_iff e).mpr ⟨i, hi.take hij⟩
    have habsent := (isOk_insert _ _).mp hj.succeeds
    rw [contains_eq_true.mpr ⟨e, hthere, rfl⟩] at habsent
    cases habsent
  have hmn := hrefused hm hn
  have hnm := hrefused hn hm
  omega

/-- **The order of the ready queue is its history.** After any calls on a queue that was empty at first, no thread is in
it twice; its entries are those that were inserted and whose threads have been neither removed nor popped since; they stand
by ascending priority value, and of one value the latest successful insertion stands first. To insert a thread that is
there is refused and changes nothing, and any other insertion succeeds. To remove a thread, or to pop the head, leaves the
others as they stand. -/
theorem readyHistory_run (calls : List ReadyCall) :
    let q := run {} calls
    (q.entries.map (·.thread)).Nodup ∧
    (∀ e, e ∈ q.entries ↔ ∃! n, StandsSince calls e n) ∧
    q.entries.Pairwise (fun a b => ∀ m n, StandsSince calls a m → StandsSince calls b n →
      a.priority < b.priority ∨ (a.priority = b.priority ∧ n < m)) ∧
    (∀ thread priority, if q.contains thread then
      q.insert thread priority = .error (.alreadyScheduled thread) ∧ q.after (.insert thread priority) = q
      else ∃ q', q.insert thread priority = .ok q') ∧
    (∀ thread, (q.remove thread).entries = q.entries.filter (·.thread != thread)) ∧
    q.entries = q.head?.toList ++ q.tail.entries := by
  intro q
  have h : Recounts calls q := recounts_run calls
  refine ⟨h.nodup, fun e => (h.mem_iff e).trans ⟨fun ⟨n, hn⟩ => ⟨n, hn, fun m hm => hm.unique hn⟩, fun hn => hn.exists⟩,
    h.ordered, fun thread priority => ?_, entries_remove h.nodup, entries_eq_head_tail q⟩
  split
  · next hc => exact ⟨insert_of_contains hc priority, after_insert_of_contains hc priority⟩
  · next hc => exact ⟨_, insert_of_absent (Bool.eq_false_iff.mpr hc) priority⟩

/-- Threads 1, 2 and 4 come with priority 32 and thread 3 with 16; thread 1 cannot come again, thread 2 leaves from between
the others, comes back at the head with priority 16 and is popped. -/
def comings : List ReadyCall :=
  [.insert 1 32, .insert 2 32, .insert 3 16, .insert 1 16, .remove 2, .insert 2 16, .insert 4 32, .popHead]

/-- A run that queues, requeues and takes out threads. -/
theorem readyHistory_run_comings :
    (run {} comings).entries = [⟨3, 16⟩, ⟨4, 32⟩, ⟨1, 32⟩] ∧
      (∃ m n, StandsSince comings ⟨4, 32⟩ m ∧ StandsSince comings ⟨1, 32⟩ n ∧ n < m) ∧
      ¬ ∃ n, StandsSince comings ⟨2, 16⟩ n := by
  have hentries : (run {} comings).entries = [⟨3, 16⟩, ⟨4, 32⟩, ⟨1, 32⟩] := by decide
  obtain ⟨-, hmem, hordered, -⟩ := readyHistory_run comings
  obtain ⟨m, hm, -⟩ := (hmem ⟨4, 32⟩).mp (by rw [hentries]; decide)
  obtain ⟨n, hn, -⟩ := (hmem ⟨1, 32⟩).mp (by rw [hentries]; decide)
  refine ⟨hentries, ⟨m, n, hm, hn, ?_⟩, fun ⟨n, hn⟩ => ?_⟩
  · rw [hentries] at hordered
    rcases (List.pairwise_cons.mp (List.pairwise_cons.mp hordered).2).1 _ (by decide) m n hm hn with hlt | ⟨-, hlt⟩
    · exact absurd hlt (by decide)
    · exact hlt
  · have hthere := (hmem ⟨2, 16⟩).mpr ⟨n, hn, fun m hm => hm.unique hn⟩
    rw [hentries] at hthere
    exact absurd hthere (by decide)

end ReadyQueue

end GuestKernel
