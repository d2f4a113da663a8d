/-
# What the handles name

Objects, contexts, the table of the started threads and the lists of callbacks name each other by id. A run is read off
its operations: which threads they start (`startsAlong`) and which ids they hand out (`givenAlong`), both in order. The
four structures always fit what happened, and they fit each other without gaps if threads are deleted entirely.

| | in every reachable state |
| --- | --- |
| the table | the threads that were started and are registered, in the order of their starts |
| a thread's context | is live, and no other thread's |
| a thread's list | callbacks of that thread, in the order in which they were made |
| an object | has the id under which it is registered, which was handed out once |

| | if partitions end within the address space |
| --- | --- |
| the live contexts | the contexts of the threads in the table |
| a thread's list | all the callbacks of that thread |
| a callback's owner | is registered |

Source: specification, 2 and 3.
-/

import GuestKernel.Proofs.CallReturns
import GuestKernel.Proofs.ContextOwners
import GuestKernel.Proofs.ServiceOrder
import Mathlib.Data.List.Sort

namespace GuestKernel

/-! ### Names of objects -/

namespace Object

theorem Enqueues.name_eq {o o' : Object} {id : ThreadId} {priority : UInt32} {w : Wait}
    (h : o.Enqueues id priority w o') : o'.name = o.name := by
  cases h <;> rfl

theorem name_removeWaiter (o : Object) (thread : ThreadId) : (o.removeWaiter thread).name = o.name := by
  cases o with
  | messagePipe p =>
    simp only [removeWaiter]
    split <;> rfl
  | _ => rfl

theorem Step.name_eq {l : Label} {o o' : Object} (h : o.Step l o') : o'.name = o.name := by
  cases h with
  | same => rfl
  | change _ h => exact h.named.2
  | enqueue _ h => exact h.name_eq
  | leave => exact name_removeWaiter ..

end Object

theorem Thread.Step.name_eq {l : Label} {t t' : Thread} (h : t.Step l t') : t'.name = t.name := by
  cases h with
  | edit hlife => rw [hlife]
  | _ => rfl

/-- What is registered after a move is another state of what was registered before, or has just been made. -/
theorem Move.named {l : Label} {s s' : Stage} (hm : Move l s s') (hc : s.kernel.Coherent) {x : ObjectId} {b : Object}
    (hb : s'.kernel.objects.get? x = some b) :
    (∃ a, s.kernel.objects.get? x = some a ∧ b.kind = a.kind ∧ b.name = a.name) ∨ l = .create b := by
  by_cases hkind : b.kind = .thread
  · cases b with
    | thread t =>
      obtain ⟨u, hu, hstep⟩ | ⟨hl, -⟩ := hm.thread hc (ObjectTable.thread?_eq_some.mpr hb)
      · exact Or.inl ⟨.thread u, ObjectTable.thread?_eq_some.mp hu, rfl, hstep.name_eq⟩
      · exact Or.inr hl
    | _ => cases hkind
  · obtain ⟨a, ha, hstep⟩ | ⟨hl, -⟩ := hm.object hb hkind
    · exact Or.inl ⟨a, ha, hstep.kind_eq, hstep.name_eq⟩
    · exact Or.inr hl

namespace Kernel

variable {k : Kernel} {o : Operation} {x : ObjectId} {given : List ObjectId} {l : Label} {s s' : Stage}
  {starts : List ThreadId} {t : Thread}

/-! ### What happens along a run -/

/-- What operations bring about, each in the kernel that it finds. -/
def listAlong {α : Type} (f : Kernel → Operation → Option α) (k : Kernel) : List Operation → List α
  | [] => []
  | o :: rest => (f k o).toList ++ (k.after o).listAlong f rest

theorem listAlong_concat {α : Type} (f : Kernel → Operation → Option α) (k : Kernel) (operations : List Operation)
    (o : Operation) : k.listAlong f (operations ++ [o]) = k.listAlong f operations ++ (f (k.run operations) o).toList := by
  induction operations generalizing k with
  | nil => exact List.append_nil _
  | cons o' rest ih =>
    rw [List.cons_append, listAlong, listAlong, ih, List.append_assoc, run_cons]

/-- The thread that an operation starts. -/
def launched? (k : Kernel) : Operation → Option ThreadId
  | .syscall (.startThread id argumentLength argumentAddress) =>
    if (k.startThread id argumentLength argumentAddress).result.isOk then some id else none
  | _ => none

/-- The threads that operations start, in the order of their starts. -/
def startsAlong : Kernel → List Operation → List ThreadId := listAlong launched?

/-- The id that an operation hands out. -/
def given? (k : Kernel) (o : Operation) : Option ObjectId :=
  if (k.after o).nextId = k.nextId then none else some k.nextId

/-- The ids that operations hand out, in order. -/
def givenAlong : Kernel → List Operation → List ObjectId := listAlong given?

/-! ### Ids -/

/-- **An object is registered under an id that it had, or that is handed out to it.** -/
theorem named_after (h : k.Coherent ∧ k.IdsBelow) (hn : k.started.Nodup) {b : Object}
    (hb : (k.after o).objects.get? x = some b) :
    (∃ a, k.objects.get? x = some a ∧ b.kind = a.kind ∧ b.name = a.name) ∨
      (k.objects.get? x = none ∧ k.given? o = some x) := by
  have hcreate : ∀ {l : Label} {y : Object}, o.Permits k l → l = .create y →
      k.objects.get? y.id = none ∧ k.given? o = some y.id := by
    rintro l y hl rfl
    obtain ⟨hid, hafter, -⟩ := hl.created
    have hne : (k.after o).nextId ≠ k.nextId := by
      rw [hafter]
      simp
    rw [hid]
    exact ⟨h.2.fresh, if_neg hne⟩
  obtain ⟨-, L, hafter, -⟩ := staged_after (o := o) (P := fun s => ∀ x b, s.kernel.objects.get? x = some b →
    (∃ a, k.objects.get? x = some a ∧ b.kind = a.kind ∧ b.name = a.name) ∨
      (k.objects.get? x = none ∧ k.given? o = some x)) h hn
    (fun l s s' hl hc _ hm hs x b hb => by
      obtain ⟨a, ha, hkind, hname⟩ | hmade := hm.named hc hb
      · refine (hs x a ha).imp_left ?_
        rintro ⟨a₀, ha₀, hkind₀, hname₀⟩
        exact ⟨a₀, ha₀, hkind.trans hkind₀, hname.trans hname₀⟩
      · rw [← ObjectTable.id_of_get? hb]
        exact Or.inr (hcreate hl hmade)) fun x a ha => Or.inl ⟨a, ha, rfl, rfl⟩
  exact hafter x b hb

/-- Ids that have been handed out are ascending and below the next one, and whatever is registered has one of them. -/
structure Given (k : Kernel) (given : List ObjectId) : Prop where
  ascending : given.Pairwise (· < ·)
  below : ∀ x ∈ given, x < k.nextId
  registered : ∀ x b, k.objects.get? x = some b → x ∈ given

/-- What an operation hands out is the greatest id so far. -/
theorem Given.after (h : k.Given given) (hc : k.Coherent ∧ k.IdsBelow) (hn : k.started.Nodup)
    (hbound : k.SparesLastId o) : (k.after o).Given (given ++ (k.given? o).toList) := by
  have hgiven : ∀ y, k.given? o = some y → y = k.nextId ∧ k.nextId < (k.after o).nextId := by
    intro y hy
    unfold given? at hy
    split at hy
    · cases hy
    · next hne =>
      refine ⟨(Option.some.inj hy).symm, UInt32.lt_iff_toNat_lt.mpr ?_⟩
      rw [(moves_after k o hn).1.resolve_left hne, UInt32.toNat_add, show (1 : UInt32).toNat = 1 from rfl,
        Nat.mod_eq_of_lt (hbound hne)]
      omega
  refine ⟨?_, fun x hx => ?_, fun x b hb => ?_⟩
  · refine List.pairwise_append.mpr ⟨h.ascending, ?_, fun x hx y hy => ?_⟩
    · cases k.given? o with
      | none => exact List.Pairwise.nil
      | some y => exact List.pairwise_singleton _ y
    · rw [(hgiven y (Option.mem_toList.mp hy)).1]
      exact h.below x hx
  · rcases List.mem_append.mp hx with hx | hx
    · exact UInt32.lt_iff_toNat_lt.mpr (Nat.lt_of_lt_of_le (UInt32.lt_iff_toNat_lt.mp (h.below x hx))
        (nextId_le_of_room hn hbound))
    · obtain ⟨rfl, hlt⟩ := hgiven x (Option.mem_toList.mp hx)
      exact hlt
  · obtain ⟨a, ha, -⟩ | ⟨-, hnew⟩ := named_after hc hn hb
    · exact List.mem_append_left _ (h.registered x a ha)
    · exact List.mem_append_right _ (Option.mem_toList.mpr hnew)

/-! ### The table of started threads -/

/-- An operation starts a stopped thread, or it starts none: it is about something else, or has no effect. -/
theorem launched?_cases (k : Kernel) (o : Operation) :
    (∃ t registers, k.thread? t.id = some t ∧ t.status = .onlyStopped ∧ k.launched? o = some t.id ∧
      k.after o = ((k.allocateContext t.entry registers).launch t k.contexts.freshId).note
        (.threadStarted t.name t.id t.entry)) ∨
      (k.launched? o = none ∧ (k.after o = k ∨ o.starts? = none)) := by
  cases o with
  | syscall call =>
    cases call with
    | startThread id argumentLength argumentAddress =>
      have hlaunched : k.launched? (.syscall (.startThread id argumentLength argumentAddress)) =
        if (k.startThread id argumentLength argumentAddress).result.isOk then some id else none := rfl
      have hafter : k.after (.syscall (.startThread id argumentLength argumentAddress)) =
        (k.startThread id argumentLength argumentAddress).kernel := rfl
      rw [hlaunched, hafter]
      unfold startThread
      split
      · exact Or.inr ⟨rfl, Or.inl rfl⟩
      · next t ht =>
        obtain rfl := id_of_thread? ht
        split
        · exact Or.inr ⟨rfl, Or.inl rfl⟩
        · next hs => exact Or.inl ⟨t, _, ht, not_not.mp hs, rfl, rfl⟩
    | _ => exact Or.inr ⟨rfl, Or.inr rfl⟩
  | _ => exact Or.inr ⟨rfl, Or.inr rfl⟩

/-- A thread that is not made just now is registered after a move as before, unless it is buried. -/
theorem isSome_thread?_step (hc : s.kernel.Coherent)
    (hfresh : l.Fresh s.kernel) (hm : Move l s s') (hnew : ∀ o, l = .create o → o.id ≠ x) (hl : l ≠ .bury x) :
    (s'.kernel.thread? x).isSome = (s.kernel.thread? x).isSome := by
  refine Bool.eq_iff_iff.mpr ⟨fun hsome => ?_, fun hsome => ?_⟩
  · obtain ⟨t', ht'⟩ := Option.isSome_iff_exists.mp hsome
    obtain ⟨t, ht, -⟩ | ⟨hmade, -⟩ := hm.thread hc ht'
    · exact Option.isSome_iff_exists.mpr ⟨t, ht⟩
    · exact absurd (id_of_thread? ht') (hnew _ hmade)
  · obtain ⟨t, ht⟩ := Option.isSome_iff_exists.mp hsome
    exact Option.isSome_iff_exists.mpr ((hm.thread_stays hfresh ht).resolve_right fun hbury => hl hbury.2)

/-- A thread that is buried is neither registered nor in the table. -/
theorem started_bury {id : ThreadId} (hm : Move (.bury id) s s') :
    s'.kernel.started = s.kernel.started.filter (· != id) ∧
      ∀ y, s'.kernel.thread? y = if id = y then none else s.kernel.thread? y := by
  cases hm with
  | bury => exact ⟨rfl, fun y => ObjectTable.thread?_erase y⟩

/-- The table names registered threads only. -/
theorem Enrolled.filter_started (h : k.Enrolled) : (k.started.filter fun x => (k.thread? x).isSome) = k.started := by
  refine List.filter_eq_self.mpr fun x hx => ?_
  obtain ⟨t, ht, -⟩ := h.begun x hx
  exact Option.isSome_iff_exists.mpr ⟨t, ht⟩

/-- A move that starts no thread takes those off the table that it unregisters, if it makes no thread anew. -/
theorem started_step {known : List ThreadId} (hc : s.kernel.Coherent) (hfresh : l.Fresh s.kernel) (hm : Move l s s')
    (hnew : ∀ y ∈ known, ∀ o, l = .create o → o.id ≠ y) (hlaunch : ∀ id, l ≠ .launch id)
    (hs : s.kernel.started = known.filter fun y => (s.kernel.thread? y).isSome) :
    s'.kernel.started = known.filter fun y => (s'.kernel.thread? y).isSome := by
  by_cases hbury : ∃ id, l = .bury id
  · obtain ⟨id, rfl⟩ := hbury
    obtain ⟨hstarted, hthread⟩ := started_bury hm
    rw [hstarted, hs, List.filter_filter]
    refine List.filter_congr fun y _ => ?_
    rw [hthread]
    by_cases hy : id = y
    · simp [hy]
    · simp [hy, Ne.symm hy]
  · have hstarted : s'.kernel.started = s.kernel.started := by
      obtain ⟨-, heq⟩ | ⟨id, rfl | rfl | rfl⟩ := hm.keeps
      · exact heq
      · exact absurd rfl (hlaunch id)
      · cases hm with
        | strip => rfl
      · exact absurd ⟨id, rfl⟩ hbury
    rw [hstarted, hs]
    exact List.filter_congr fun y hy =>
      (isSome_thread?_step hc hfresh hm (hnew y hy) fun hl => hbury ⟨y, hl⟩).symm

/-- **An operation that starts no thread takes those off the table that it unregisters.** -/
theorem started_of_idle (he : k.Enrolled) (h : k.Coherent ∧ k.IdsBelow) (hn : k.started.Nodup)
    (hstarts : o.starts? = none) :
    (k.after o).started = k.started.filter fun y => ((k.after o).thread? y).isSome := by
  obtain ⟨-, L, hafter, -⟩ := staged_after (o := o)
    (P := fun s => s.kernel.started = k.started.filter fun y => (s.kernel.thread? y).isSome) h hn
    (fun l s s' hl hc hfresh hm => by
      refine started_step hc hfresh hm ?_ ?_
      · rintro y hy z rfl rfl
        obtain ⟨t, ht, -⟩ := he.begun z.id hy
        exact Nat.lt_irrefl _ (hl.created.1 ▸ h.2.thread_lt ht)
      · rintro id rfl
        cases hl with
        | touch _ harranges => cases hstarts.symm.trans (harranges trivial)) he.filter_started.symm
  exact hafter

/-- The table is what is left of the threads that were started, in the order of their starts. -/
structure Tabled (k : Kernel) (starts : List ThreadId) : Prop where
  table : k.started = starts.filter fun x => (k.thread? x).isSome
  below : ∀ x ∈ starts, x.toNat < k.nextId.toNat

/-- Who was started before and is registered after an operation is in the table before it. -/
theorem Tabled.filter_after (h : k.Tabled starts) (hc : k.Coherent ∧ k.IdsBelow)
    (hn : k.started.Nodup) : (k.started.filter fun x => ((k.after o).thread? x).isSome) =
      starts.filter fun x => ((k.after o).thread? x).isSome := by
  rw [h.table, List.filter_filter]
  refine List.filter_congr fun x hx => Bool.and_eq_left_iff_imp.mpr fun hsome => ?_
  obtain ⟨t', ht'⟩ := Option.isSome_iff_exists.mp hsome
  cases ht : k.thread? x with
  | none =>
    -- A thread made by the operation has the next id, which no thread that was started has.
    have hlt := h.below x hx
    rw [(new_after hc hn ht ht').1] at hlt
    exact absurd hlt (Nat.lt_irrefl _)
  | some t => rfl

/-- **Every operation keeps the table in the order of the starts.** -/
theorem Tabled.after (h : k.Tabled starts) (he : k.Enrolled) (hc : k.Coherent ∧ k.IdsBelow)
    (hn : k.started.Nodup) (hbound : k.SparesLastId o) : (k.after o).Tabled (starts ++ (k.launched? o).toList) := by
  have hle := nextId_le_of_room hn hbound
  have hself := (he.after hc hn hbound).filter_started
  have hleft := h.filter_after (o := o) hc hn
  obtain ⟨t, registers, ht, hs, hlaunched, hafter⟩ | ⟨hlaunched, hidle⟩ := launched?_cases k o
  · have hmem : t.id ∉ k.started := by
      intro hmem
      obtain ⟨u, hu, hstopped⟩ := he.begun t.id hmem
      obtain rfl := Option.some.inj (ht.symm.trans hu)
      rw [hs] at hstopped
      cases hstopped
    have hstarted : (k.after o).started = k.started ++ [t.id] := by
      rw [hafter]
      exact (started_launch ..).trans (if_neg hmem)
    rw [hlaunched, Option.toList_some]
    refine ⟨?_, fun x hx => ?_⟩
    · rw [List.filter_append, ← hleft, ← List.filter_append, ← hstarted, hself]
    · rcases List.mem_append.mp hx with hx | hx
      · exact Nat.lt_of_lt_of_le (h.below x hx) hle
      · rw [List.mem_singleton.mp hx]
        exact Nat.lt_of_lt_of_le (hc.2.thread_lt ht) hle
  · rw [hlaunched, Option.toList_none, List.append_nil]
    refine ⟨?_, fun x hx => Nat.lt_of_lt_of_le (h.below x hx) hle⟩
    rw [← hleft]
    rcases hidle with hsame | hstarts
    · rw [hsame]
      exact he.filter_started.symm
    · exact started_of_idle he hc hn hstarts

/-! ### Runs -/

/-- There is room for every id that a run hands out. -/
theorem room_run {config : KernelConfig} {memory : Memory} {first rest : List Operation}
    (hids : (Kernel.new config memory).handedOut (first ++ o :: rest) < 2 ^ 32 - 1)
    (hne : (((Kernel.new config memory).run first).after o).nextId ≠ ((Kernel.new config memory).run first).nextId) :
    ((Kernel.new config memory).run first).nextId.toNat + 1 < 2 ^ 32 := by
  have hnext := nextId_new config memory
  rw [handedOut_append, handedOut, if_neg hne] at hids
  rw [toNat_nextId_run first (nodup_started_new config memory) (by omega)]
  omega

/-- **In every reachable state the table and the registered objects fit the history.** -/
theorem histories_run (config : KernelConfig) (memory : Memory) (operations : List Operation)
    (hids : (Kernel.new config memory).handedOut operations < 2 ^ 32 - 1) :
    ((Kernel.new config memory).run operations).Given ((Kernel.new config memory).givenAlong operations) ∧
      ((Kernel.new config memory).run operations).Tabled ((Kernel.new config memory).startsAlong operations) := by
  induction operations using List.reverseRecOn with
  | nil =>
    obtain ⟨partitions, journal, heq, -⟩ := new_cases config memory
    refine ⟨⟨List.Pairwise.nil, nofun, fun x b hb => ?_⟩, ⟨?_, nofun⟩⟩
    · rw [run_nil, get?_new] at hb
      cases hb
    · rw [run_nil, heq]
      rfl
  | append_singleton operations o ih =>
    have hids' := Nat.lt_of_le_of_lt (handedOut_le_append _ operations [o]) hids
    obtain ⟨hgiven, htabled⟩ := ih hids'
    have hc := (leased_run config memory operations hids').1
    have he := enrolled_run config memory operations hids'
    have hn := nodup_started_run config memory operations
    have hroom := room_run hids
    rw [run_concat, givenAlong, startsAlong, listAlong_concat, listAlong_concat]
    exact ⟨hgiven.after hc hn hroom, htabled.after he hc hn hroom⟩

/-! ### Callbacks in the order in which they were made -/

/-- The callbacks of a thread among some ids. -/
def callbacksOf (k : Kernel) (x : ThreadId) (ids : List ObjectId) : List ObjectId :=
  ids.filter fun id => (k.objects.callback? id).map (·.owner) = some x

theorem mem_callbacksOf {ids : List ObjectId} {id : ObjectId} :
    id ∈ k.callbacksOf x ids ↔ id ∈ ids ∧ ∃ c, k.objects.callback? id = some c ∧ c.owner = x := by
  unfold callbacksOf
  rw [List.mem_filter, decide_eq_true_iff, Option.map_eq_some_iff]

/-- Of two ascending lists the one is part of the other if its members are. -/
theorem sublist_of_ascending {l l' : List ObjectId} (hl : l.Pairwise (· < ·)) (hl' : l'.Pairwise (· < ·))
    (h : l ⊆ l') : l.Sublist l' :=
  List.sublist_of_subperm_of_pairwise (List.subperm_of_subset (hl.imp UInt32.ne_of_lt) h) hl hl'

/-- What a thread lists are callbacks of its own, in the order of their ids. -/
theorem sublist_callbacksOf (h : k.Given given) (ha : k.Attached)
    (ht : k.thread? x = some t) : t.callbacks.Sublist (k.callbacksOf x given) := by
  refine sublist_of_ascending (ha.ascending x t ht) (h.ascending.filter _) fun id hid => ?_
  obtain ⟨c, hc, howner⟩ := ha.owned x t ht id hid
  exact mem_callbacksOf.mpr ⟨h.registered id _ (ObjectTable.callback?_eq_some.mp hc), c, hc, howner⟩

/-- The list of a thread is its callbacks in the order of their ids. -/
theorem callbacks_eq_callbacksOf (h : k.Given given) (ha : k.Attached)
    (hh : k.Housed) (ht : k.thread? x = some t) : t.callbacks = k.callbacksOf x given := by
  refine (sublist_callbacksOf h ha ht).antisymm
    (sublist_of_ascending (h.ascending.filter _) (ha.ascending x t ht) fun id hid => ?_)
  obtain ⟨-, c, hc, rfl⟩ := mem_callbacksOf.mp hid
  obtain ⟨u, hu, hmem⟩ := hh id c hc
  obtain rfl := Option.some.inj (ht.symm.trans hu)
  exact hmem

/-! ### Integrity -/

/-- The handles name what they should, after threads have been started and ids handed out. -/
structure Linked (k : Kernel) (starts : List ThreadId) (given : List ObjectId) : Prop where
  /-- The table lists the started threads that are registered, in the order of their starts. -/
  table : k.started = starts.filter fun x => (k.thread? x).isSome
  once : k.started.Nodup
  /-- The context of a thread is live, and the thread has been started. -/
  live : ∀ x c, k.contextOf? x = some c → (k.contexts.get? c).isSome = true ∧ x ∈ k.started
  apart : ∀ x y c, k.contextOf? x = some c → k.contextOf? y = some c → x = y
  /-- The list of a thread names callbacks of its own, each once, in the order in which they were made. -/
  lists : ∀ x t, k.thread? x = some t → t.callbacks.Sublist (k.callbacksOf x given)
  /-- An object has the id under which it is registered, and the id was handed out. -/
  keyed : ∀ x b, k.objects.get? x = some b → b.id = x ∧ x ∈ given

/-- Nothing is left over: every live context and every callback belongs to a thread, which knows it. -/
structure Gapless (k : Kernel) (given : List ObjectId) : Prop where
  contexts : ∀ c, (k.contexts.get? c).isSome = true ↔ ∃ x ∈ k.started, k.contextOf? x = some c
  seats : ∀ x ∈ k.started, ∃ c, k.contextOf? x = some c
  lists : ∀ x t, k.thread? x = some t → t.callbacks = k.callbacksOf x given
  owners : ∀ id c, k.objects.callback? id = some c → ∃ t, k.thread? c.owner = some t ∧ id ∈ t.callbacks

/-- **The handles fit what has happened.** In every reachable state the table, the contexts of threads, their lists of
callbacks and the registered objects name what they should. Over the whole run no id is handed out twice, and an object
under an id is the one to which the id was handed out. If all partitions end within the address space, moreover, the live
contexts are exactly those of the threads in the table, and every callback is on the list of its owner. -/
theorem linked_run (config : KernelConfig) (memory : Memory) (operations : List Operation)
    (hids : (Kernel.new config memory).handedOut operations < 2 ^ 32 - 1) :
    let new := Kernel.new config memory
    let k := new.run operations
    k.Linked (new.startsAlong operations) (new.givenAlong operations) ∧ (new.givenAlong operations).Nodup ∧
      (∀ first o rest, operations = first ++ o :: rest → ∀ x b, ((new.run first).after o).objects.get? x = some b →
        (∃ a, (new.run first).objects.get? x = some a ∧ b.kind = a.kind ∧ b.name = a.name) ∨
          ((new.run first).objects.get? x = none ∧ (new.run first).given? o = some x)) ∧
      ((∀ c ∈ config.partitions, c.base.toNat + c.size.toNat < 2 ^ 32) → k.Gapless (new.givenAlong operations)) := by
  intro new k
  obtain ⟨hgiven, htabled⟩ := histories_run config memory operations hids
  obtain ⟨-, hleased, -⟩ := leased_run config memory operations hids
  have he := enrolled_run config memory operations hids
  have ha := attached_run config memory operations hids
  refine ⟨⟨htabled.table, nodup_started_run config memory operations, fun x c hx => ?_, hleased.apart,
    fun x t ht => sublist_callbacksOf hgiven ha ht, fun x b hb => ?_⟩, hgiven.ascending.imp UInt32.ne_of_lt, ?_,
    fun hconfig => ?_⟩
  · exact ⟨hleased.live x c hx, he.listed x c hx⟩
  · exact ⟨ObjectTable.id_of_get? hb, hgiven.registered x b hb⟩
  · rintro first o rest rfl x b hb
    have hids' := Nat.lt_of_le_of_lt (handedOut_le_append _ first (o :: rest)) hids
    exact named_after (leased_run config memory first hids').1 (nodup_started_run config memory first) hb
  · obtain ⟨hseated, hhoused⟩ := seated_run memory operations hconfig hids
    refine ⟨fun c => ⟨fun hlive => ?_, ?_⟩, hseated.seats,
      fun x t ht => callbacks_eq_callbacksOf hgiven ha hhoused ht, hhoused⟩
    · obtain ⟨x, hx⟩ := hseated.tenants c hlive
      exact ⟨x, he.listed x c hx, hx⟩
    · rintro ⟨x, -, hx⟩
      exact hleased.live x c hx

/-- Two threads start against the order in which they were made. The one that runs makes three callbacks and drops the
second, and the other one is deleted. -/
def crossedStarts : List Operation :=
  [.syscall (.createThread "early" 0x08900000 40 0x1000 0), .syscall (.createThread "late" 0x08900000 32 0x1000 0),
    .syscall (.createThread "gone" 0x08900000 50 0x1000 0), .syscall (.startThread 3 0 0),
    .syscall (.startThread 2 0 0), .syscall (.startThread 1 0 0), .dispatch,
    .syscall (.createCallback "a" 0x08901000 0), .syscall (.createCallback "b" 0x08901000 0),
    .syscall (.createCallback "c" 0x08901000 0), .syscall (.deleteCallback 5), .deleteThread 3]

/-- The table has the threads that are left, contexts 2 and 3 are theirs, and the list has the first callback and the
third. -/
theorem linked_run_crossedStarts :
    let new := Kernel.new {} {}
    let k := new.run crossedStarts
    new.handedOut crossedStarts < 2 ^ 32 - 1 ∧ new.startsAlong crossedStarts = [3, 2, 1] ∧
      new.givenAlong crossedStarts = [1, 2, 3, 4, 5, 6] ∧ k.started = [2, 1] ∧
      [1, 2, 3].map k.contextOf? = [some 3, some 2, none] ∧ (k.thread? 2).map (·.callbacks) = some [4, 6] ∧
      (∀ c ∈ ({} : KernelConfig).partitions, c.base.toNat + c.size.toNat < 2 ^ 32) ∧
      k.Linked [3, 2, 1] [1, 2, 3, 4, 5, 6] ∧ k.Gapless [1, 2, 3, 4, 5, 6] := by
  have hids : (Kernel.new {} {}).handedOut crossedStarts < 2 ^ 32 - 1 := handedOut_lt (by decide)
  have hstarts : (Kernel.new {} {}).startsAlong crossedStarts = [3, 2, 1] := by decide +kernel
  have hgiven : (Kernel.new {} {}).givenAlong crossedStarts = [1, 2, 3, 4, 5, 6] := by decide +kernel
  have hconfig : ∀ c ∈ ({} : KernelConfig).partitions, c.base.toNat + c.size.toNat < 2 ^ 32 := by decide
  obtain ⟨hlinked, -, -, hgapless⟩ := linked_run {} {} crossedStarts hids
  rw [hstarts, hgiven] at hlinked
  rw [hgiven] at hgapless
  exact ⟨hids, hstarts, hgiven, by decide +kernel, by decide +kernel, by decide +kernel, hconfig, hlinked,
    hgapless hconfig⟩

/-- A thread with a callback is deleted. -/
def deletedOwner : List Operation :=
  loneThread ++ [.syscall (.createCallback "notice" 0x08901000 0), .deleteThread 1]

/-- Where the blocks of a thread lie beyond the address space, deleting it fails half way: the thread stays in the table
without a context, its context stays live without a thread, and its callback stays registered on no list. -/
theorem gaps_beyondAddresses :
    let k := (Kernel.new beyondAddresses {}).run deletedOwner
    (Kernel.new beyondAddresses {}).handedOut deletedOwner < 2 ^ 32 - 1 ∧ k.started = [1] ∧
      k.contextOf? 1 = none ∧ (k.contexts.get? 1).isSome = true ∧
      (k.objects.callback? 2).map (·.owner) = some 1 ∧ (k.thread? 1).map (·.callbacks) = some [] ∧
      ¬ k.Gapless [1, 2] := by
  have hids : (Kernel.new beyondAddresses {}).handedOut deletedOwner < 2 ^ 32 - 1 := handedOut_lt (by decide)
  have hstarted : ((Kernel.new beyondAddresses {}).run deletedOwner).started = [1] := by decide +kernel
  have hnone : ((Kernel.new beyondAddresses {}).run deletedOwner).contextOf? 1 = none := by decide +kernel
  refine ⟨hids, hstarted, hnone, by decide +kernel, by decide +kernel, by decide +kernel, fun hgapless => ?_⟩
  obtain ⟨c, hc⟩ := hgapless.seats 1 (hstarted ▸ List.mem_singleton_self 1)
  cases hnone.symm.trans hc

end Kernel
end GuestKernel
