/-
# Which callback runs

Dispatch runs a callback whenever a thread that lets callbacks in owns one that has been notified (`Owes`). Of these
threads it takes one of the lowest priority value, among equals the one that was started first, and of its notified
callbacks the one that was made first (`Chosen`).

The program finds that callback by a search through the list of the started threads and through the list of callbacks of
each. Both lists are in the order of time: that of the threads by `startedInOrder_run`, and that of the callbacks because
ids are handed out in ascending order (`madeBefore_run`).

Source: specification, 4.6.
-/

import GuestKernel.Proofs.CallbackDelivery
import GuestKernel.Proofs.CallbackLists
import GuestKernel.Proofs.DispatchOrder
import GuestKernel.Proofs.ServiceOrder

namespace GuestKernel

/-! ### Threads that let callbacks in -/

/-- The thread is in a wait that lets callbacks run and is not on hold, or it is to have the processor and has asked for
its callbacks. -/
def Thread.LetsIn (t : Thread) : Prop :=
  (t.status = .onlyWaiting ∧ ∃ w, t.wait = some w ∧ w.callbacks = true) ∨
    ((t.status = .onlyReady ∨ t.status = .onlyRunning) ∧ t.checksCallbacks = true)

/-- The check of the status and the wait is what letting callbacks in means. -/
theorem Thread.Sound.admitsCallbacks_iff {t : Thread} (h : t.Sound) : t.admitsCallbacks = true ↔ t.LetsIn := by
  have hlegal : ∀ s ∈ ThreadStatus.legal, ((s.waiting && !s.suspended) = true ↔ s = .onlyWaiting) := by decide
  have hwait : ((t.wait.map (·.callbacks)).getD false) = true ↔ ∃ w, t.wait = some w ∧ w.callbacks = true := by
    cases t.wait <;> simp
  unfold Thread.admitsCallbacks Thread.LetsIn
  rw [Bool.or_eq_true, Bool.and_eq_true, hlegal t.status h.status, hwait, Bool.and_eq_true, Bool.or_eq_true,
    beq_iff_eq, beq_iff_eq, and_comm (a := t.checksCallbacks = true)]

theorem Thread.LetsIn.active {t : Thread} (h : t.LetsIn) : t.isDormant = false := by
  rcases h with ⟨hs, -⟩ | ⟨hs | hs, -⟩ <;> · unfold Thread.isDormant; rw [hs]; rfl

theorem Thread.LetsIn.alive {t : Thread} (h : t.LetsIn) : t.status.dead = false := by
  rcases h with ⟨hs, -⟩ | ⟨hs | hs, -⟩ <;> rw [hs] <;> rfl

namespace Kernel

variable {k : Kernel} {o : Operation} {t : Thread} {c : Callback} {candidates : List (Thread × Callback)}
  {x y : ObjectId} {P : Kernel → ObjectId → Prop} {operations : List Operation}

/-- The thread lets callbacks in and owns one that has been notified. -/
structure Owes (k : Kernel) (t : Thread) (c : Callback) : Prop where
  thread : k.thread? t.id = some t
  letsIn : t.LetsIn
  callback : k.objects.callback? c.id = some c
  owner : c.owner = t.id
  notified : 0 < c.notifyCount

/-! ### The search -/

/-- Among candidates there is a best one. -/
theorem bestOf_eq_none : bestOf candidates = none ↔ candidates = [] := by
  cases candidates with
  | nil => exact ⟨fun _ => rfl, fun _ => rfl⟩
  | cons y rest =>
    refine ⟨fun h => ?_, fun h => by cases h⟩
    unfold bestOf at h
    split at h
    · cases h
    · split at h <;> cases h

/-- The search finds the first candidate of the lowest priority value. -/
theorem bestOf_eq_some {x : Thread × Callback}
    (h : bestOf candidates = some x) : ∃ before rest, candidates = before ++ x :: rest ∧
      (∀ y ∈ before, x.1.priority < y.1.priority) ∧ ∀ y ∈ rest, x.1.priority ≤ y.1.priority := by
  induction candidates generalizing x with
  | nil => cases h
  | cons y rest ih =>
    unfold bestOf at h
    split at h
    · next hnone =>
      cases h
      refine ⟨[], rest, rfl, fun z hz => (by cases hz), fun z hz => ?_⟩
      rw [bestOf_eq_none.mp hnone] at hz
      cases hz
    · next other hother =>
      obtain ⟨before, after, rfl, hbefore, hafter⟩ := ih hother
      split at h
      · next hlt =>
        cases h
        refine ⟨y :: before, after, rfl, fun z hz => ?_, hafter⟩
        rcases List.mem_cons.mp hz with rfl | hz
        · exact hlt
        · exact hbefore z hz
      · next hle =>
        cases h
        have hleast : y.1.priority ≤ other.1.priority := UInt32.not_lt.mp hle
        refine ⟨[], before ++ other :: after, rfl, fun z hz => (by cases hz), fun z hz => ?_⟩
        rcases List.mem_append.mp hz with hz | hz
        · exact UInt32.le_trans hleast (UInt32.le_of_lt (hbefore z hz))
        · rcases List.mem_cons.mp hz with rfl | hz
          · exact hleast
          · exact UInt32.le_trans hleast (hafter z hz)

/-- What the search for a pending callback finds, and what it has passed. -/
theorem pendingCallback?_eq_some (h : k.pendingCallback? t = some c) : ∃ before rest,
    t.callbacks = before ++ c.id :: rest ∧ k.objects.callback? c.id = some c ∧ 0 < c.notifyCount ∧
      ∀ id ∈ before, ∀ c', k.objects.callback? id = some c' → ¬ 0 < c'.notifyCount := by
  obtain ⟨before, id, rest, hlist, hid, hbefore⟩ := List.findSome?_eq_some_iff.mp h
  obtain ⟨hc, hpending⟩ := Option.filter_eq_some_iff.mp hid
  obtain rfl : c.id = id := ObjectTable.id_of_get? (ObjectTable.callback?_eq_some.mp hc)
  refine ⟨before, rest, hlist, hc, of_decide_eq_true hpending, fun y hy c' hc' hlt => ?_⟩
  have hnone := hbefore y hy
  have hpending' : c'.isPending = true := decide_eq_true hlt
  rw [hc', Option.filter_some, if_pos hpending'] at hnone
  cases hnone

/-- A thread with a notified callback has one that is pending. -/
theorem pendingCallback?_isSome (hx : x ∈ t.callbacks) (hc : k.objects.callback? x = some c)
    (hpending : 0 < c.notifyCount) : (k.pendingCallback? t).isSome = true := by
  have hyes : c.isPending = true := decide_eq_true hpending
  refine List.findSome?_isSome_iff.mpr ⟨x, hx, ?_⟩
  rw [hc, Option.filter_some, if_pos hyes]
  rfl

/-- A thread that lets callbacks in, with the callback that is found for it. -/
def candidate? (k : Kernel) (x : ThreadId) : Option (Thread × Callback) :=
  (k.thread? x).bind fun t => if t.admitsCallbacks then (k.pendingCallback? t).map fun c => (t, c) else none

theorem deliverable_eq (k : Kernel) : k.deliverable = k.started.filterMap k.candidate? := by
  unfold deliverable
  congr 1
  funext x
  unfold candidate?
  cases k.thread? x <;> rfl

/-- A candidate lets callbacks in and has one pending. -/
theorem candidate?_eq_some {x : ThreadId} : k.candidate? x = some (t, c) ↔
    k.thread? x = some t ∧ t.admitsCallbacks = true ∧ k.pendingCallback? t = some c := by
  unfold candidate?
  rw [Option.bind_eq_some_iff]
  constructor
  · rintro ⟨u, hu, hc⟩
    split at hc
    · next hadmits =>
      obtain ⟨c₁, hc₁, heq⟩ := Option.map_eq_some_iff.mp hc
      cases heq
      exact ⟨hu, hadmits, hc₁⟩
    · cases hc
  · rintro ⟨ht, hadmits, hc⟩
    exact ⟨t, ht, by rw [if_pos hadmits, hc]; rfl⟩

/-- **The candidates of dispatch are the threads that owe a callback**, each with the one of the lowest id. -/
theorem mem_deliverable (hc : k.Coherent) (ha : k.Attached) (h : (t, c) ∈ k.deliverable) :
    k.Owes t c ∧ ∀ c', k.Owes t c' → c.id ≤ c'.id := by
  rw [deliverable_eq] at h
  obtain ⟨x, -, hx⟩ := List.mem_filterMap.mp h
  obtain ⟨ht, hadmits, hpending⟩ := candidate?_eq_some.mp hx
  obtain rfl := id_of_thread? ht
  have hletsIn := (hc.threads _ _ ht).admitsCallbacks_iff.mp hadmits
  obtain ⟨before, rest, hlist, hcallback, hnotified, hpassed⟩ := pendingCallback?_eq_some hpending
  obtain ⟨c₁, hc₁, howner⟩ := ha.owned _ _ ht c.id (hlist ▸ List.mem_append_right _ (List.mem_cons_self ..))
  obtain rfl := Option.some.inj (hcallback.symm.trans hc₁)
  refine ⟨⟨ht, hletsIn, hcallback, howner, hnotified⟩, fun c' howes => ?_⟩
  have hmem := ha.listed c'.id c' t howes.callback (howes.owner ▸ ht) hletsIn.alive
  have hascending := ha.ascending _ _ ht
  rw [hlist] at hmem hascending
  rcases List.mem_append.mp hmem with hearly | hlate
  · exact absurd howes.notified (hpassed c'.id hearly c' howes.callback)
  · rcases List.mem_cons.mp hlate with heq | hrest
    · exact UInt32.le_of_eq heq.symm
    · exact UInt32.le_of_lt ((List.pairwise_cons.mp (List.pairwise_append.mp hascending).2.1).1 _ hrest)

/-- Who owes a callback is a candidate. -/
theorem Owes.mem_deliverable (h : k.Owes t c) (hc : k.Coherent) (ha : k.Attached) (hl : k.Leased) :
    ∃ c', (t, c') ∈ k.deliverable := by
  have hlisted := ha.listed c.id c t h.callback (h.owner ▸ h.thread) h.letsIn.alive
  obtain ⟨c', hc'⟩ := Option.isSome_iff_exists.mp (pendingCallback?_isSome hlisted h.callback h.notified)
  have hadmits := (hc.threads _ _ h.thread).admitsCallbacks_iff.mpr h.letsIn
  refine ⟨c', ?_⟩
  rw [deliverable_eq]
  exact List.mem_filterMap.mpr
    ⟨t.id, hl.listed t.id t h.thread h.letsIn.active, candidate?_eq_some.mpr ⟨h.thread, hadmits, hc'⟩⟩

/-! ### What dispatch does with it -/

/-- Whether the running thread has yielded makes no difference to the choice. -/
theorem bestOf_yielded (candidates : List (Thread × Callback)) :
    bestOf (candidates.map fun e => (e.1.yielded, e.2)) = (bestOf candidates).map fun e => (e.1.yielded, e.2) := by
  have hpriority : ∀ t : Thread, t.yielded.priority = t.priority := by
    intro t
    unfold Thread.yielded
    split <;> rfl
  induction candidates with
  | nil => rfl
  | cons y rest ih =>
    rw [List.map_cons, bestOf, bestOf, ih]
    cases bestOf rest with
    | none => rfl
    | some other =>
      simp only [Option.map_some, hpriority]
      split <;> rfl

/-- Dispatch runs the callback on its thread, and takes its notifications. -/
structure Delivers (k : Kernel) (t : Thread) (c : Callback) : Prop where
  idle : k.delivering = none
  best : bestOf k.deliverable = some (t, c)
  owes : k.Owes t c
  answer : ∃ context, t.context = some context ∧ k.dispatch.1 = some ⟨t.id, context,
    .runCallback ⟨c.id, c.entry, c.notifyCount, c.notifyArgument, c.commonArgument⟩⟩
  delivering : ∃ d, k.dispatch.2.delivering = some d ∧ d.thread = t.id ∧ d.callback = c.id
  callback : ∀ x, k.dispatch.2.objects.callback? x = if c.id = x then some c.taken else k.objects.callback? x

/-- Dispatch runs no callback, and leaves them all alone. -/
structure DeliversNone (k : Kernel) : Prop where
  answer : ∀ thread context i, k.dispatch.1 ≠ some ⟨thread, context, .runCallback i⟩
  delivering : k.dispatch.2.delivering = k.delivering
  callback : ∀ x, k.dispatch.2.objects.callback? x = k.objects.callback? x

/-- Dispatch runs the callback that the search finds. -/
theorem Coherent.delivers (h : k.Coherent) (ha : k.Attached) (hd : k.delivering = none)
    (hbest : bestOf k.deliverable = some (t, c)) : k.Delivers t c := by
  obtain ⟨howes, -⟩ := mem_deliverable h ha (mem_of_bestOf hbest)
  obtain ⟨context, hcontext⟩ := Option.isSome_iff_exists.mp
    ((h.threads _ _ howes.thread).context howes.letsIn.active)
  have hid : t.yielded.id = t.id := by
    unfold Thread.yielded
    split <;> rfl
  have hcontext' : t.yielded.context = some context := by
    unfold Thread.yielded
    split <;> exact hcontext
  have hbest' : bestOf k.preempt.deliverable = some (t.yielded, c) := by
    rw [h.map_deliverable hd, bestOf_yielded, hbest]
    rfl
  have hthread : k.preempt.thread? t.yielded.id = some t.yielded := by
    rw [hid, h.thread?_preempt hd, howes.thread]
    rfl
  let d : Delivery := ⟨t.yielded.id, c.id, k.preempt.contexts.registers context, t.yielded.status.waiting⟩
  have hdispatch : k.dispatch = (some ⟨t.yielded.id, context,
        .runCallback ⟨c.id, c.entry, c.notifyCount, c.notifyArgument, c.commonArgument⟩⟩,
      ((k.preempt.put (.callback c.taken)).note (.callbackDelivered c.id t.yielded.id)).interrupt t.yielded d) := by
    unfold dispatch
    rw [hd]
    dsimp only
    rw [hbest']
    dsimp only
    unfold deliver
    dsimp only
    rw [hcontext']
    rfl
  refine ⟨hd, hbest, howes, ⟨context, hcontext, ?_⟩, ⟨d, ?_, hid, rfl⟩, fun x => ?_⟩
  · rw [hdispatch, hid]
  · rw [hdispatch]
    rfl
  · rw [hdispatch]
    have hput : (k.preempt.put (.callback c.taken)).objects.callback? x =
        if c.id = x then some c.taken else k.objects.callback? x := by
      rw [← callback?_preempt k x]
      exact callback?_put c.taken x
    rw [← hput]
    refine OnlyThreads.callback? (rearranges_interrupt ?_ _).onlyThreads x
    have hne : c.taken.id ≠ t.yielded.id := by
      intro heq
      have hcallback := (of_mem_deliverable (mem_of_bestOf hbest')).2.2
      rw [show c.id = t.yielded.id from heq] at hcallback
      cases hcallback.symm.trans (ObjectTable.thread?_eq_some.mp hthread)
    exact (thread?_put ..).trans ((if_neg hne).trans hthread)

theorem delivering_runFirst (k : Kernel) (entries : List ReadyEntry) :
    (k.runFirst entries).2.delivering = k.delivering := by
  induction entries generalizing k with
  | nil => rfl
  | cons e rest ih =>
    unfold runFirst
    split
    · exact ih _
    · dsimp only
      split
      · rfl
      · exact ih _

/-- With no candidate dispatch runs no callback. -/
theorem Coherent.deliversNone (h : k.Coherent) (hbest : k.delivering = none → k.deliverable = []) :
    k.DeliversNone := by
  cases hd : k.delivering with
  | some d =>
    have hdispatch : k.dispatch = (none, k.note (.dispatchDuringCallback d.callback d.thread)) := by
      unfold dispatch
      rw [hd]
    refine ⟨fun thread context i heq => ?_, ?_, fun x => ?_⟩
    · rw [hdispatch] at heq
      cases heq
    all_goals
      rw [hdispatch]
      rfl
  | none =>
    have hdispatch := dispatch_of_deliverable hd (h.deliverable_preempt hd (hbest hd))
    refine ⟨fun thread context i heq => ?_, ?_, fun x => ?_⟩
    · rw [hdispatch] at heq
      cases action_runFirst heq
    · rw [hdispatch]
      exact (delivering_runFirst ..).trans (delivering_preempt k)
    · rw [hdispatch]
      exact ((rearranges_runFirst ..).onlyThreads.callback? x).trans (callback?_preempt k x)

/-- **Dispatch runs a callback or none.** -/
theorem Coherent.delivers_cases (h : k.Coherent) (ha : k.Attached) : k.DeliversNone ∨ ∃ t c, k.Delivers t c := by
  by_cases hnone : k.delivering = none → k.deliverable = []
  · exact Or.inl (h.deliversNone hnone)
  · obtain ⟨hd, hne⟩ := Classical.not_imp.mp hnone
    cases hbest : bestOf k.deliverable with
    | none => exact absurd (bestOf_eq_none.mp hbest) hne
    | some e => exact Or.inr ⟨e.1, e.2, h.delivers ha hd hbest⟩

/-- **When dispatch answers with a callback**, it is the one that the search has found. -/
theorem Coherent.of_dispatch (h : k.Coherent) (ha : k.Attached) {thread : ThreadId} {context : ContextId}
    {i : Invocation} (hrun : k.dispatch.1 = some ⟨thread, context, .runCallback i⟩) : ∃ t c, k.Delivers t c ∧
      thread = t.id ∧ t.context = some context ∧
        i = ⟨c.id, c.entry, c.notifyCount, c.notifyArgument, c.commonArgument⟩ := by
  obtain hnone | ⟨t, c, hdelivers⟩ := h.delivers_cases ha
  · exact absurd hrun (hnone.answer thread context i)
  · obtain ⟨context', hcontext, hanswer⟩ := hdelivers.answer
    cases hrun.symm.trans hanswer
    exact ⟨t, c, hdelivers, rfl, hcontext, rfl⟩

/-! ### The order of time -/

/-- Something was so of `x` before it was so of `y`. -/
def Precedes (P : Kernel → ObjectId → Prop) (k : Kernel) (operations : List Operation) (x y : ObjectId) : Prop :=
  ∃ first rest, operations = first ++ rest ∧ P (k.run first) x ∧ ¬ P (k.run first) y

/-- The first thread was started before the second. -/
def StartedBefore : Kernel → List Operation → ThreadId → ThreadId → Prop := Precedes fun k x => x ∈ k.started

/-- The first callback was made before the second. -/
def MadeBefore : Kernel → List Operation → ObjectId → ObjectId → Prop :=
  Precedes fun k x => (k.objects.callback? x).isSome = true

theorem Precedes.concat (h : Precedes P k operations x y) (o : Operation) : Precedes P k (operations ++ [o]) x y := by
  obtain ⟨first, rest, rfl, hx, hy⟩ := h
  exact ⟨first, rest ++ [o], List.append_assoc .., hx, hy⟩

theorem Precedes.of_run (hx : P (k.run operations) x) (hy : ¬ P (k.run operations) y) (o : Operation) :
    Precedes P k (operations ++ [o]) x y :=
  ⟨operations, [o], rfl, hx, hy⟩

/-- Threads leave the list of the started ones, or one joins it at its end. -/
theorem started_after (hn : k.started.Nodup) (o : Operation) : (k.after o).started.Sublist k.started ∨
    ∃ x, x ∉ k.started ∧ (k.after o).started = k.started ++ [x] := by
  cases hstarts : o.starts? with
  | none =>
    obtain ⟨-, L, hmoves, -⟩ := moves_after k o hn
    refine Or.inl (hmoves.preserves (P := fun s => s.kernel.started.Sublist k.started) ?_ (List.Sublist.refl _))
    intro l s s' hl hm hs
    obtain ⟨-, heq⟩ | ⟨id, rfl | rfl | rfl⟩ := hm.keeps
    · exact heq ▸ hs
    · cases hl with
      | touch _ harranges => cases hstarts.symm.trans (harranges trivial)
    · cases hm with
      | strip => exact hs
    · cases hm with
      | bury => exact List.filter_sublist.trans hs
  | some id =>
    cases o with
    | syscall call =>
      cases call with
      | startThread x argumentLength argumentAddress =>
        show (k.startThread x argumentLength argumentAddress).kernel.started.Sublist _ ∨ ∃ y, y ∉ k.started ∧
          (k.startThread x argumentLength argumentAddress).kernel.started = _
        unfold startThread
        split
        · exact Or.inl (List.Sublist.refl _)
        · next t ht =>
          split
          · exact Or.inl (List.Sublist.refl _)
          · have hlaunch := started_launch (k.allocateContext t.entry
              (t.initialRegisters argumentLength argumentAddress)) t k.contexts.freshId
            by_cases hmem : t.id ∈ k.started
            · exact Or.inl ((hlaunch.trans (if_pos hmem)) ▸ List.Sublist.refl _)
            · exact Or.inr ⟨t.id, hmem, hlaunch.trans (if_neg hmem)⟩
      | _ => cases hstarts
    | _ => cases hstarts

/-- **The list of the started threads is in the order of their starts.** -/
theorem startedInOrder_run (config : KernelConfig) (memory : Memory) (operations : List Operation) :
    ((Kernel.new config memory).run operations).started.Pairwise (StartedBefore (Kernel.new config memory) operations) := by
  induction operations using List.reverseRecOn with
  | nil =>
    obtain ⟨partitions, journal, heq, -⟩ := new_cases config memory
    rw [run_nil, heq]
    exact List.Pairwise.nil
  | append_singleton operations o ih =>
    have hlater := ih.imp fun hxy => Precedes.concat hxy o
    rw [run_concat]
    obtain hsub | ⟨x, hx, heq⟩ := started_after (nodup_started_run config memory operations) o
    · exact hlater.sublist hsub
    · rw [heq]
      refine List.pairwise_append.mpr ⟨hlater, List.pairwise_singleton _ _, fun a ha b hb => ?_⟩
      rw [List.mem_singleton.mp hb]
      exact Precedes.of_run ha hx o

/-- **Callbacks get ascending ids in the order in which they are made.** -/
theorem madeBefore_run (config : KernelConfig) (memory : Memory) (operations : List Operation)
    (hids : (Kernel.new config memory).handedOut operations < 2 ^ 32 - 1) (hlt : x < y)
    (hx : (((Kernel.new config memory).run operations).objects.callback? x).isSome = true)
    (hy : (((Kernel.new config memory).run operations).objects.callback? y).isSome = true) :
    MadeBefore (Kernel.new config memory) operations x y := by
  induction operations using List.reverseRecOn with
  | nil =>
    rw [run_nil, callback?_eq_none_of_get? (get?_new config memory x)] at hx
    cases hx
  | append_singleton operations o ih =>
    have hids' := Nat.lt_of_le_of_lt (handedOut_le_append _ operations [o]) hids
    obtain ⟨⟨-, hbelow⟩, -⟩ := leased_run config memory operations hids'
    have hn := nodup_started_run config memory operations
    rw [run_concat] at hx hy
    generalize hk : (Kernel.new config memory).run operations = k at *
    have hold : ∀ z, z ≠ k.nextId → ((k.after o).objects.callback? z).isSome = true →
        (k.objects.callback? z).isSome = true := by
      intro z hz hsome
      obtain ⟨c, hc⟩ := Option.isSome_iff_exists.mp hsome
      obtain ⟨u, hu, hkind⟩ := kind_of_after hn hz (ObjectTable.callback?_eq_some.mp hc) (fun h => by cases h)
      cases u with
      | callback c' => exact Option.isSome_iff_exists.mpr ⟨c', ObjectTable.callback?_eq_some.mpr hu⟩
      | _ => cases hkind
    by_cases hbefore : (k.objects.callback? y).isSome = true
    · obtain ⟨c, hc⟩ := Option.isSome_iff_exists.mp hbefore
      have hne : x ≠ k.nextId := by
        rintro rfl
        exact UInt32.lt_irrefl _ (UInt32.lt_trans hlt (hbelow.callback_lt hc))
      exact (ih hids' (hold x hne hx) hbefore).concat o
    · have hnext : y = k.nextId := by
        by_contra hne
        exact hbefore (hold y hne hy)
      have hne : x ≠ k.nextId := by
        rintro rfl
        exact UInt32.lt_irrefl _ (hnext ▸ hlt)
      refine Precedes.of_run ?_ ?_ o <;> rw [hk]
      · exact hold x hne hx
      · exact hbefore

/-! ### The choice -/

/-- Of those that owe a callback the thread has the lowest priority value, and among equals it was started first; of its
callbacks this one was made first. -/
structure Chosen (k : Kernel) (operations : List Operation) (t : Thread) (c : Callback) : Prop where
  owes : (k.run operations).Owes t c
  priority : ∀ t' c', (k.run operations).Owes t' c' → t.priority ≤ t'.priority
  started : ∀ t' c', (k.run operations).Owes t' c' → t'.priority = t.priority → t'.id ≠ t.id →
    k.StartedBefore operations t.id t'.id
  made : ∀ c', (k.run operations).Owes t c' → c'.id ≠ c.id → k.MadeBefore operations c.id c'.id

/-- **The search finds the callback that is to run.** -/
theorem chosen_run (config : KernelConfig) (memory : Memory) (operations : List Operation)
    (hids : (Kernel.new config memory).handedOut operations < 2 ^ 32 - 1)
    (hbest : bestOf ((Kernel.new config memory).run operations).deliverable = some (t, c)) :
    (Kernel.new config memory).Chosen operations t c := by
  obtain ⟨⟨hc, -⟩, hl, -⟩ := leased_run config memory operations hids
  have ha := attached_run config memory operations hids
  obtain ⟨howes, hleast⟩ := mem_deliverable hc ha (mem_of_bestOf hbest)
  obtain ⟨before, rest, hsplit, hbefore, hrest⟩ := bestOf_eq_some hbest
  have hplace : ∀ t' c', ((Kernel.new config memory).run operations).Owes t' c' →
      t.priority < t'.priority ∨ t' = t ∨ (t.priority ≤ t'.priority ∧ ∃ c'', (t', c'') ∈ rest) := by
    intro t' c' howes'
    obtain ⟨c'', hmem⟩ := howes'.mem_deliverable hc ha hl
    rw [hsplit] at hmem
    rcases List.mem_append.mp hmem with hearly | hlate
    · exact Or.inl (hbefore _ hearly)
    · rcases List.mem_cons.mp hlate with heq | hlater
      · exact Or.inr (Or.inl (congrArg Prod.fst heq))
      · exact Or.inr (Or.inr ⟨hrest _ hlater, c'', hlater⟩)
  -- The candidates stand in the order of the started threads.
  have horder : (((Kernel.new config memory).run operations).deliverable).Pairwise fun e e' =>
      (Kernel.new config memory).StartedBefore operations e.1.id e'.1.id := by
    rw [deliverable_eq]
    refine List.pairwise_filterMap.mpr ((startedInOrder_run config memory operations).imp ?_)
    intro x y hxy e he e' he'
    rw [id_of_thread? (candidate?_eq_some.mp he).1, id_of_thread? (candidate?_eq_some.mp he').1]
    exact hxy
  rw [hsplit] at horder
  have hafter := (List.pairwise_cons.mp (List.pairwise_append.mp horder).2.1).1
  refine ⟨howes, fun t' c' howes' => ?_, fun t' c' howes' heq hne => ?_, fun c' howes' hne => ?_⟩
  · rcases hplace t' c' howes' with hlt | rfl | ⟨hle, -⟩
    · exact UInt32.le_of_lt hlt
    · exact UInt32.le_refl _
    · exact hle
  · rcases hplace t' c' howes' with hlt | rfl | ⟨-, c'', hlater⟩
    · exact absurd (heq ▸ hlt) (UInt32.lt_irrefl _)
    · exact absurd rfl hne
    · exact hafter _ hlater
  · have hlt : c.id < c'.id := UInt32.lt_of_le_of_ne (hleast c' howes') hne.symm
    exact madeBefore_run config memory operations hids hlt (by rw [howes.callback]; rfl) (by rw [howes'.callback]; rfl)

end Kernel
end GuestKernel
