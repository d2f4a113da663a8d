/-
# Waiters are served in their turn

The waiters of an object stand in the order in which they came, or by the priority they had when they came and then in
that order, as the attributes of the object say. When a waiter came is what the run tells: it is the operation since which
it has stood in the queue (`Arrives`).

A semaphore, a mutex and either side of a pipe serve the front of the queue only (`ServesFront`), and nobody gets past
those who stand there: a call that finds a queue is refused or blocks (`blocked_of_queued`).

Source: specification, 4.4 to 4.6.
-/

import GuestKernel.Proofs.QueueLines
import GuestKernel.Proofs.ThreadSteps
import GuestKernel.Proofs.Timeouts
import Mathlib.Data.List.Induction

namespace GuestKernel

/-! ### The order of a queue -/

/-- Who stands before whom: by arrival, or by priority and then by arrival. -/
def Waiter.Before (attributes : UInt32) (arrival : ThreadId → Nat) (v w : Waiter Unit) : Prop :=
  if attributes &&& attributePriority = 0 then arrival v.thread < arrival w.thread
  else v.priority < w.priority ∨ (v.priority = w.priority ∧ arrival v.thread < arrival w.thread)

namespace WaitQueue

variable {attributes : UInt32} {arrival : ThreadId → Nat} {q : WaitQueue Unit} {w : Waiter Unit}

/-- In a queue by priority, whoever stands behind a higher priority value has a higher one. -/
theorem lt_of_mem_dropWhile {p : UInt32} (h : q.Pairwise (·.priority ≤ ·.priority)) {v : Waiter Unit}
    (hv : v ∈ q.dropWhile (·.priority ≤ p)) : p < v.priority := by
  induction q with
  | nil => cases hv
  | cons a rest ih =>
    obtain ⟨ha, hrest⟩ := List.pairwise_cons.mp h
    by_cases hle : a.priority ≤ p
    · rw [List.dropWhile_cons_of_pos (by simpa using hle)] at hv
      exact ih hrest hv
    · rw [List.dropWhile_cons_of_neg (by simpa using hle)] at hv
      have hlt : p < a.priority := UInt32.not_le.mp hle
      rcases List.mem_cons.mp hv with rfl | hv
      · exact hlt
      · exact UInt32.lt_of_lt_of_le hlt (ha v hv)

/-- **A newcomer keeps the order.** -/
theorem pairwise_enqueue (h : q.Pairwise (Waiter.Before attributes arrival))
    (hlast : ∀ v ∈ q, arrival v.thread < arrival w.thread) :
    (q.enqueue attributes w).Pairwise (Waiter.Before attributes arrival) := by
  unfold enqueue
  split
  · next hplain =>
    refine List.pairwise_append.mpr ⟨h, List.pairwise_singleton _ _, fun v hv w' hw' => ?_⟩
    rw [List.mem_singleton.mp hw', Waiter.Before, if_pos hplain]
    exact hlast v hv
  · next hranked =>
    have hsorted : q.Pairwise (·.priority ≤ ·.priority) := by
      refine h.imp fun {a b} hab => ?_
      rw [Waiter.Before, if_neg hranked] at hab
      rcases hab with hlt | ⟨heq, -⟩
      · exact UInt32.le_of_lt hlt
      · exact UInt32.le_of_eq heq
    have hbefore : ∀ v ∈ q.takeWhile (·.priority ≤ w.priority), Waiter.Before attributes arrival v w := by
      intro v hv
      have hle : v.priority ≤ w.priority := by simpa using List.mem_takeWhile_imp hv
      have harrival := hlast v (List.takeWhile_sublist _ |>.subset hv)
      rw [Waiter.Before, if_neg hranked]
      rcases UInt32.lt_or_eq_of_le hle with hlt | heq
      · exact Or.inl hlt
      · exact Or.inr ⟨heq, harrival⟩
    have hbehind : ∀ v ∈ q.dropWhile (·.priority ≤ w.priority), Waiter.Before attributes arrival w v := by
      intro v hv
      rw [Waiter.Before, if_neg hranked]
      exact Or.inl (lt_of_mem_dropWhile hsorted hv)
    have hsplit := List.takeWhile_append_dropWhile (p := fun v : Waiter Unit => decide (v.priority ≤ w.priority)) (l := q)
    rw [← hsplit, List.pairwise_append] at h
    obtain ⟨hfront, hback, hcross⟩ := h
    refine List.pairwise_append.mpr ⟨hfront, List.pairwise_cons.mpr ⟨hbehind, hback⟩, fun a ha b hb => ?_⟩
    rcases List.mem_cons.mp hb with rfl | hb
    · exact hbefore a ha
    · exact hcross a ha b hb

end WaitQueue

namespace Kernel

variable {k : Kernel} {operations : List Operation} {op : Operation} {x : ObjectId} {l : Line} {w : Waiter Unit} {n : Nat}

/-- A waiter came with the operation after `n` others, on the processor and with the priority it has in the queue, and
has stood there ever since. -/
structure Arrives (k : Kernel) (operations : List Operation) (x : ObjectId) (l : Line) (w : Waiter Unit) (n : Nat) :
    Prop where
  lt : n < operations.length
  running : (k.run (operations.take n)).current = some w.thread
  priority : ∃ t, (k.run (operations.take n)).thread? w.thread = some t ∧ t.priority = w.priority
  absent : w.thread ∉ ((k.run (operations.take n)).line x l).threads
  since : ∀ m, n < m → m ≤ operations.length → w ∈ (k.run (operations.take m)).line x l

/-- Those in the queue of an object stand in the order that its attributes ask for. -/
def InOrder (k : Kernel) (operations : List Operation) (x : ObjectId) (l : Line) : Prop :=
  ∃ arrival : ThreadId → Nat,
    (∀ w ∈ (k.run operations).line x l, k.Arrives operations x l w (arrival w.thread)) ∧
    ((k.run operations).line x l).Pairwise (Waiter.Before ((k.run operations).attributes x) arrival)

theorem run_concat (k : Kernel) (operations : List Operation) (op : Operation) :
    k.run (operations ++ [op]) = (k.run operations).after op := by
  rw [run_append, run_cons, run_nil]

/-- Whoever still stands in the queue after another operation has stood there since. -/
theorem Arrives.concat (h : k.Arrives operations x l w n) (hw : w ∈ ((k.run operations).after op).line x l) :
    k.Arrives (operations ++ [op]) x l w n := by
  have hlength : (operations ++ [op]).length = operations.length + 1 := List.length_append
  have htake : (operations ++ [op]).take n = operations.take n := List.take_append_of_le_length (Nat.le_of_lt h.lt)
  refine ⟨by rw [hlength]; exact Nat.lt_succ_of_lt h.lt, ?_, ?_, ?_, fun m hm hle => ?_⟩
  · rw [htake]
    exact h.running
  · rw [htake]
    exact h.priority
  · rw [htake]
    exact h.absent
  · rcases Nat.lt_or_ge operations.length m with hlast | hearlier
    · rw [List.take_of_length_le (by omega), run_concat]
      exact hw
    · rw [List.take_append_of_le_length hearlier]
      exact h.since m hm hearlier

/-- The running thread enters a queue with the last operation. -/
theorem arrives_last (hcurrent : (k.run operations).current = some w.thread)
    (hpriority : ∃ t, (k.run operations).thread? w.thread = some t ∧ t.priority = w.priority)
    (hout : w.thread ∉ ((k.run operations).line x l).threads) (hw : w ∈ ((k.run operations).after op).line x l) :
    k.Arrives (operations ++ [op]) x l w operations.length := by
  have hlength : (operations ++ [op]).length = operations.length + 1 := List.length_append
  refine ⟨by omega, ?_, ?_, ?_, fun m hm hle => ?_⟩
  · rwa [List.take_left]
  · rwa [List.take_left]
  · rwa [List.take_left]
  · rw [List.take_of_length_le (by omega), run_concat]
    exact hw

/-- Those who stay keep their order. -/
theorem InOrder.leave (h : k.InOrder operations x l)
    (hsub : (((k.run operations).after op).line x l).Sublist ((k.run operations).line x l))
    (ha : ((k.run operations).after op).line x l ≠ [] →
      ((k.run operations).after op).attributes x = (k.run operations).attributes x) :
    k.InOrder (operations ++ [op]) x l := by
  obtain ⟨arrival, harrives, horder⟩ := h
  refine ⟨arrival, fun w hw => ?_, ?_⟩
  · rw [run_concat] at hw
    exact (harrives w (hsub.subset hw)).concat hw
  · rw [run_concat]
    by_cases hempty : ((k.run operations).after op).line x l = []
    · rw [hempty]
      exact List.Pairwise.nil
    · rw [ha hempty]
      exact horder.sublist hsub

/-- The running thread enters, after all the others. -/
theorem InOrder.enter (h : k.InOrder operations x l) {t : Thread} (hcurrent : (k.run operations).current = some t.id)
    (ht : (k.run operations).thread? t.id = some t) (hout : t.id ∉ ((k.run operations).line x l).threads)
    (hline : ((k.run operations).after op).line x l =
      ((k.run operations).line x l).enqueue ((k.run operations).attributes x) ⟨t.id, t.priority, ()⟩)
    (ha : ((k.run operations).after op).attributes x = (k.run operations).attributes x) :
    k.InOrder (operations ++ [op]) x l := by
  obtain ⟨arrival, harrives, horder⟩ := h
  let arrival' : ThreadId → Nat := Function.update arrival t.id operations.length
  have hothers : ∀ w ∈ (k.run operations).line x l, arrival' w.thread = arrival w.thread := by
    intro w hw
    have hne : w.thread ≠ t.id := fun heq => hout (heq ▸ List.mem_map_of_mem hw)
    exact Function.update_of_ne hne ..
  have hnew : arrival' t.id = operations.length := Function.update_self ..
  refine ⟨arrival', fun w hw => ?_, ?_⟩
  · rw [run_concat] at hw
    rcases List.mem_cons.mp ((WaitQueue.perm_enqueue ..).mem_iff.mp (hline ▸ hw)) with rfl | hold
    · rw [hnew]
      exact arrives_last hcurrent ⟨t, ht, rfl⟩ hout hw
    · rw [hothers w hold]
      exact (harrives w hold).concat hw
  · rw [run_concat, hline, ha]
    refine WaitQueue.pairwise_enqueue (horder.imp_of_mem fun {v w} hv hw hvw => ?_) fun v hv => ?_
    · unfold Waiter.Before at hvw ⊢
      rwa [hothers v hv, hothers w hw]
    · rw [hothers v hv, hnew]
      exact (harrives v hv).lt

/-- **Each operation keeps the order of a queue.** -/
theorem InOrder.after (h : k.InOrder operations x l) (hn : (k.run operations).started.Nodup)
    (hc : (k.run operations).Coherent) (hp : (k.run operations).Placed []) (op : Operation) :
    k.InOrder (operations ++ [op]) x l := by
  by_cases hop : ∃ kind, op.object? = some (kind, x)
  · obtain ⟨kind, hkind⟩ := hop
    cases op with
    | syscall call =>
      cases attends_perform hc hp (show call.object? = some (kind, x) from hkind) with
      | serves _ hline _ _ ha =>
        refine h.leave ?_ fun _ => ha
        rw [hline]
        exact List.sublist_append_right ..
      | enters hcurrent ht hout hline _ ha => exact h.enter hcurrent ht hout hline ha
      | picks _ hline ha => exact h.leave hline fun _ => ha
      | dismisses hline =>
        refine h.leave ?_ fun hne => absurd hline hne
        exact (show ((k.run operations).after (.syscall call)).line x l = [] from hline) ▸ List.nil_sublist _
    | _ => cases hkind
  · obtain ⟨hline, ha⟩ := line_after_other hn (not_exists.mp hop) l
    exact h.leave hline ha

/-- **Every queue is in order in every reachable state**, as long as ids have not run out. -/
theorem inOrder_run (config : KernelConfig) (memory : Memory) (operations : List Operation)
    (hids : (Kernel.new config memory).handedOut operations < 2 ^ 32 - 1) (x : ObjectId) (l : Line) :
    (Kernel.new config memory).InOrder operations x l := by
  induction operations using List.reverseRecOn with
  | nil =>
    have hempty : (Kernel.new config memory).line x l = [] := by
      rw [line, get?_new]
      rfl
    refine ⟨fun _ => 0, fun w hw => ?_, ?_⟩
    · rw [run_nil, hempty] at hw
      cases hw
    · rw [run_nil, hempty]
      exact List.Pairwise.nil
  | append_singleton operations op ih =>
    have hids' := Nat.lt_of_le_of_lt (handedOut_le_append _ operations [op]) hids
    obtain ⟨⟨hc, -⟩, hp⟩ := placed_run config memory operations hids'
    exact (ih hids').after (nodup_started_run config memory operations) hc hp op

end Kernel

/-! ### Waits that an operation leaves alone -/

namespace Move

variable {label : Label} {s s' : Stage} {id : ThreadId}

/-- **Who gets into transit**: those that an object lets go, one that begins to wait or gives up its place, and those
that waited for the end of a thread. -/
theorem enters_transit (hm : Move label s s') (hmem : id ∈ s'.transit) : id ∈ s.transit ∨
    (∃ o, s.kernel.objects.get? o.id = some o ∧ o.kind ≠ .thread ∧ id ∈ o.waiting ∧
      (label = .erase o ∨ ∃ o', label = .change o o')) ∨
    (∃ w, label = .park id w) ∨ (∃ w, label = .detach id w ∧ s.kernel.waitOf? id = some w) ∨
    ∃ t, s.kernel.objects.get? t.id = some (.thread t) ∧ id ∈ t.exitWaiters := by
  cases hm with
  | erase ho hkind => exact Or.inr (Or.inl ⟨_, ho, hkind, hmem, Or.inl rfl⟩)
  | @change k o o' off ho hchange =>
    exact Or.inr (Or.inl ⟨o, ho, hchange.kind_ne_thread, hchange.off_subset hmem, Or.inr ⟨o', rfl⟩⟩)
  | enqueue | doze => cases hmem
  | park => exact Or.inr (Or.inr (Or.inl ⟨_, by rw [List.mem_singleton.mp hmem]⟩))
  | @detach k t w ht hw =>
    obtain rfl : id = t.id := List.mem_singleton.mp hmem
    exact Or.inr (Or.inr (Or.inr (Or.inl ⟨w, rfl, Kernel.waitOf?_eq_some.mpr ⟨t, ht, hw⟩⟩)))
  | wake => exact Or.inl (List.mem_cons_of_mem _ hmem)
  | retire ht => exact Or.inr (Or.inr (Or.inr (Or.inr ⟨_, ObjectTable.thread?_eq_some.mp ht, hmem⟩)))
  | _ => exact Or.inl hmem

end Move

namespace Kernel

variable {k k' : Kernel} {op : Operation} {x : ObjectId} {l : Line} {w : Waiter Unit} {id : ThreadId} {wait : Wait}
  {label : Label} {s s' : Stage} {kind : ObjectKind}

/-- The thread is dead, or in the wait it was in and not about to be woken. -/
def WaitsOn (s : Stage) (id : ThreadId) (wait : Wait) : Prop :=
  ∀ t, s.kernel.thread? id = some t → t.status.dead = true ∨ (t.wait = some wait ∧ id ∉ s.transit)

/-- Whoever has joined a thread waits for its end. -/
theorem Placed.joins {L : List ThreadId} {u : Thread} (h : k.Placed L) (hu : k.objects.get? u.id = some (.thread u))
    (hmem : id ∈ u.exitWaiters) (hw : k.waitOf? id = some wait) : wait.kind = .join := by
  have hentry : (id, Demand.exit) ∈ k.queues u.id := by
    rw [queues_of_get? hu]
    exact List.mem_map_of_mem hmem
  obtain ⟨w, hw', -, hjoin⟩ := Places.entry h u.id _ hentry
  obtain rfl := Option.some.inj (hw'.symm.trans hw)
  exact hjoin

/-- Whoever stands in a queue waits on the object and on no other thread or time. -/
theorem queued_of_mem_line (h : k.Placed []) (hw : w ∈ k.line x l) : ∃ t wait, k.thread? w.thread = some t ∧
    t.wait = some wait ∧ wait.handle = x ∧ wait.kind ≠ .sleep ∧ wait.kind ≠ .delay ∧ wait.kind ≠ .join := by
  cases ho : k.objects.get? x with
  | none => simp [line, ho] at hw
  | some o =>
    rw [line_eq ho] at hw
    have hkind := (Object.kind_of_line_ne (List.ne_nil_of_mem hw)).1
    have hmem := Object.mem_waiting_of_mem_line hw
    rw [← Object.map_entries, List.mem_map] at hmem
    obtain ⟨e, he, hid⟩ := hmem
    obtain ⟨wait, hwait, hhandle, hasks⟩ := Places.entry h x e (queues_of_get? ho ▸ he)
    obtain ⟨t, ht, hwait⟩ := waitOf?_eq_some.mp hwait
    refine ⟨t, wait, hid ▸ ht, hwait, hhandle, hasks.kind_ne.1, hasks.kind_ne.2, fun hjoin => ?_⟩
    have hwaitKind := Object.waitKind?_eq he hasks
    rw [hjoin] at hwaitKind
    cases o <;> first | exact hkind rfl | cases hwaitKind

/-- A wait goes on with a move that does not let the thread go. -/
theorem WaitsOn.step (h : WaitsOn s id wait) (hlt : id.toNat < k.nextId.toNat)
    (hl : op.Permits k label) (hc : s.kernel.Coherent) (hm : Move label s s')
    (hstays : (∀ w, label ≠ .park id w) → s.kernel.waitOf? id = some wait → id ∉ s.transit → id ∉ s'.transit) :
    WaitsOn s' id wait := by
  intro t' ht'
  obtain ⟨t, ht, hstep⟩ | ⟨rfl, -, hid⟩ := hm.thread hc ht'
  · rcases h t ht with hdead | ⟨hwait, hout⟩
    · exact Or.inl (hstep.stays_dead hdead).1
    have hpark : ∀ w, label ≠ .park id w := by
      rintro w rfl
      cases hm with
      | park hd hcurrent hu =>
        have hidle := (hc.threads _ _ hu).wait_eq_none (by rw [hc.runs hd hcurrent hu]; rfl)
        rw [Option.some.inj (hu.symm.trans ht), hwait] at hidle
        cases hidle
    have hwake : ∀ result, label ≠ .wake id result := by
      rintro result rfl
      cases hm with
      | wake => exact hout (List.mem_cons_self ..)
    have hid := id_of_thread? ht
    refine (hstep.waits_on (hc.threads id t ht) hwait (hid.symm ▸ hwake) (hid.symm ▸ hpark)).imp_right
      fun hwait' => ⟨hwait', hstays hpark (waitOf?_eq_some.mpr ⟨t, ht, hwait⟩) hout⟩
  · have hsame := (id_of_thread? ht').symm.trans hl.created.1
    rw [hsame] at hlt
    exact absurd hlt (Nat.lt_irrefl _)

/-- **One move of an operation that is about other objects leaves a queued thread in its wait**, unless it kills it. -/
theorem waitsOn_step (hlt : id.toNat < k.nextId.toNat) (hl : op.Permits k label)
    (hobject : ∀ kind, op.object? ≠ some (kind, wait.handle)) (hdeletes : ∀ kind, op.deletes? ≠ some (kind, wait.handle))
    (hexpires : op.expires = false) (hkind : wait.kind ≠ .sleep ∧ wait.kind ≠ .delay ∧ wait.kind ≠ .join)
    (hc : s.kernel.Coherent) (hp : s.kernel.Placed s.transit) (hm : Move label s s') (h : WaitsOn s id wait) :
    WaitsOn s' id wait := by
  refine h.step hlt hl hc hm fun hpark hqueued hout hmem => ?_
  obtain hmem | ⟨o, ho, hthread, hmem, hlabel⟩ | ⟨w, rfl⟩ | ⟨w, rfl, hw⟩ | ⟨u, hu, hmem⟩ := hm.enters_transit hmem
  · exact hout hmem
  · -- An object that lets a thread go is the one it waits on, and that one the operation leaves alone.
    obtain ⟨u, w, hu, hw, hhandle⟩ := hp.waits ho hmem
    obtain rfl := Option.some.inj ((waitOf?_eq_some.mpr ⟨u, hu, hw⟩).symm.trans hqueued)
    have hcallback : o.kind ≠ .callback := by
      intro hcallback
      cases o <;> first | cases hmem | cases hcallback
    cases hl with
    | touch htouch =>
      rcases hlabel with rfl | ⟨o', rfl⟩
      · exact htouch.not_erases (hhandle ▸ hdeletes o.kind) hthread hcallback ⟨rfl, rfl⟩
      · exact htouch.not_changes (hhandle ▸ hobject o.kind) hthread hcallback ⟨rfl, rfl⟩
    | create => rcases hlabel with hlabel | ⟨o', hlabel⟩ <;> cases hlabel
  · exact hpark w rfl
  · obtain rfl := Option.some.inj (hw.symm.trans hqueued)
    cases hl with
    | touch _ hschedules =>
      rcases hschedules trivial with hdue | ⟨hsleep, -⟩
      · exact Bool.false_ne_true (hexpires.symm.trans hdue)
      · exact hkind.1 hsleep
  · exact hkind.2.2 (hp.joins hu hmem hqueued)

/-- **An operation about other objects leaves a queued thread in its wait**, or kills it. -/
theorem waitsOn_after (h : k.Coherent ∧ k.IdsBelow) (hn : k.started.Nodup) (hp : k.Placed [])
    (hobject : ∀ kind, op.object? ≠ some (kind, x)) (hdeletes : ∀ kind, op.deletes? ≠ some (kind, x))
    (hexpires : op.expires = false) (hw : w ∈ k.line x l) {t' : Thread} (ht' : (k.after op).thread? w.thread = some t') :
    t'.status.dead = true ∨ t'.wait.isSome = true := by
  obtain ⟨t, wait, ht, hwait, rfl, hkind⟩ := queued_of_mem_line hp hw
  obtain ⟨-, L, ⟨-, hwaits⟩, -⟩ := staged_after (o := op)
    (P := fun s => s.kernel.Placed s.transit ∧ WaitsOn s w.thread wait) h hn
    (fun label s s' hl hc hfresh hm hs => ⟨hs.1.step hc hfresh hm,
      waitsOn_step (h.2.thread_lt ht) hl hobject hdeletes hexpires hkind hc hs.1 hm hs.2⟩)
    ⟨hp, fun u hu => Or.inr ⟨Option.some.inj (ht.symm.trans hu) ▸ hwait, List.not_mem_nil⟩⟩
  exact (hwaits t' ht').imp_right fun hwaits => by rw [hwaits.1]; rfl

/-! ### Who is served -/

/-- The wait of a thread is over and it has got what it asked for. -/
def Awarded (k : Kernel) (id : ThreadId) : Prop :=
  ∃ t, k.thread? id = some t ∧ t.status.dead = false ∧ t.wait = none ∧ t.wakeResult = 0

/-- Those that are served stand at the front of the queue and are woken in their order; of the others none gets what it
asked for. -/
def ServesFront (k k' : Kernel) (x : ObjectId) (l : Line) : Prop :=
  ∃ front rest, k.line x l = front ++ rest ∧ front.threads.Sublist (k.wokenUntil k') ∧
    ∀ w ∈ rest, ¬ k'.Awarded w.thread

theorem ServesFront.of_nobody (h : ∀ w ∈ k.line x l, ¬ k'.Awarded w.thread) : k.ServesFront k' x l :=
  ⟨[], k.line x l, rfl, List.nil_sublist _, h⟩

/-- Whoever waits on, or is woken with an error, has not got what it asked for. -/
theorem not_awarded (h : k.Placed []) (hw : w ∈ k.line x l) {result : Int32} (hresult : result ≠ 0)
    (hthread : k'.thread? w.thread = k.thread? w.thread ∨
      k'.thread? w.thread = (k.thread? w.thread).map (·.woken result)) : ¬ k'.Awarded w.thread := by
  rintro ⟨t', ht', -, hidle, hzero⟩
  obtain ⟨t, wait, ht, hwait, -⟩ := waits_of_mem_line h hw
  rw [ht, Option.map_some] at hthread
  rcases hthread with hsame | hwoken
  · rw [Option.some.inj (ht'.symm.trans hsame), hwait] at hidle
    cases hidle
  · rw [Option.some.inj (ht'.symm.trans hwoken), Thread.woken_of_waiting hwait] at hzero
    exact hresult hzero

/-- A call on an object serves the front of its queue. -/
theorem Attends.servesFront (h : k.Attends k' x l) (hp : k.Placed []) (hl : l ≠ .eventFlag) : k.ServesFront k' x l := by
  have hone : (1 : Int32) ≠ 0 := by decide
  cases h with
  | serves front hline horder hrest =>
    refine ⟨front, k'.line x l, hline, horder, fun w hw => ?_⟩
    exact not_awarded hp (hline ▸ List.mem_append_right _ hw) hone (Or.inl (hrest w hw))
  | enters _ _ hout _ hrest =>
    refine .of_nobody fun w hw => not_awarded hp hw hone (Or.inl (hrest w.thread fun heq => ?_))
    exact hout (heq ▸ List.mem_map_of_mem hw)
  | picks hflag => exact absurd hflag hl
  | dismisses _ hthreads => exact .of_nobody fun w hw => not_awarded hp hw (by decide) (hthreads w.thread)

/-- Those whose object is deleted are told so. -/
theorem thread?_unregister (hkind : kind ≠ .thread) (ids : List ThreadId) (result : Int32) (id : ThreadId) :
    ((k.unregister kind x).andThen fun _ k => (k.wakeAll ids result).done ()).kernel.thread? id = k.thread? id ∨
      ((k.unregister kind x).andThen fun _ k => (k.wakeAll ids result).done ()).kernel.thread? id =
        (k.thread? id).map (·.woken result) := by
  obtain heq | ⟨o, ho, rfl, rfl, heq⟩ := unregister_cases k kind x <;> rw [heq]
  · exact Or.inl rfl
  · have herased : ({ k.note (.unregistered o.kind o.id) with objects := k.objects.erase o.id } : Kernel).thread? id =
        k.thread? id := by
      have herase : ({ k.note (.unregistered o.kind o.id) with objects := k.objects.erase o.id } : Kernel).thread? id =
          if o.id = id then none else k.thread? id := ObjectTable.thread?_erase ..
      rw [herase]
      split
      · next hid =>
        subst hid
        rw [thread?, ObjectTable.thread?_eq_bind, ho]
        cases o <;> first | exact absurd rfl hkind | rfl
      · rfl
    show (Kernel.wakeAll { k.note (.unregistered o.kind o.id) with objects := k.objects.erase o.id } ids
      result).thread? id = _ ∨ (Kernel.wakeAll { k.note (.unregistered o.kind o.id) with objects := k.objects.erase o.id }
      ids result).thread? id = _
    rw [thread?_wakeAll, herased]
    split
    · exact Or.inr rfl
    · exact Or.inl rfl

/-- Nobody is served by the end of the object. -/
theorem thread?_of_deletes {call : Syscall} (hcall : call.deletes? = some (kind, x))
    (hline : k.line x l ≠ []) (id : ThreadId) : (k.perform call).kernel.thread? id = k.thread? id ∨
      (k.perform call).kernel.thread? id = (k.thread? id).map (·.woken KernelError.waitDeleted.code) := by
  cases call with
  | deleteSemaphore y | deleteEventFlag y | deleteMutex y =>
    cases hcall
    dsimp only [perform, deleteSemaphore, deleteEventFlag, deleteMutex, Reply.map]
    split
    · exact Or.inl rfl
    · exact thread?_unregister (by decide) _ _ id
  | deletePipe y =>
    cases hcall
    show (k.deletePipe x).kernel.thread? id = _ ∨ (k.deletePipe x).kernel.thread? id = _
    unfold deletePipe
    split
    · exact Or.inl rfl
    next p hp =>
    -- A pipe that somebody waits on is not deleted.
    have hwaiters : p.hasWaiters = true := by
      rw [line_eq (ObjectTable.messagePipe?_eq_some.mp hp)] at hline
      unfold MessagePipe.hasWaiters
      cases l <;> first | exact absurd rfl hline | skip
      case senders => simpa [Object.line, WaitQueue.line] using Or.inl hline
      case receivers => simpa [Object.line, WaitQueue.line] using Or.inr hline
    rw [if_pos hwaiters]
    exact Or.inl rfl
  | freeMemory y =>
    cases hcall
    show (k.freeMemory x).kernel.thread? id = _ ∨ (k.freeMemory x).kernel.thread? id = _
    unfold freeMemory
    split
    · exact Or.inl rfl
    · next b hb =>
      rw [line_eq (ObjectTable.partitionMemory?_eq_some.mp hb)] at hline
      exact absurd (by cases l <;> rfl) hline
  | _ => cases hcall

/-- Whose time is up has not got what it asked for. -/
theorem not_awarded_expireTimeouts (h : k.Placed []) (hn : k.started.Nodup) (hw : w ∈ k.line x l) :
    ¬ k.expireTimeouts.2.Awarded w.thread := by
  have hover : k.overdue.Sublist k.waits := List.filter_sublist
  have hthread := thread?_expireAll k.overdue h ((nodup_waits hn).sublist (hover.map _))
    (fun e he => (mem_waits.mp (hover.subset he)).2) w.thread
  obtain ⟨t, wait, ht, hwait, -, -, hdelay, -⟩ := queued_of_mem_line h hw
  rintro ⟨t', ht', -, hidle, hzero⟩
  rw [ht, Option.map_some] at hthread
  obtain rfl := Option.some.inj (hthread.symm.trans ht')
  by_cases hdue : w.thread ∈ k.overdue.map (·.1)
  · simp only [if_pos hdue, Thread.timeOut, hwait, Thread.unpark, timeoutResult, if_neg hdelay] at hzero
    exact absurd hzero (by decide)
  · simp only [if_neg hdue, hwait] at hidle
    cases hidle

/-- **An operation serves the front of a queue only**, and in its order. -/
theorem servesFront_after (h : k.Coherent ∧ k.IdsBelow) (hn : k.started.Nodup) (hp : k.Placed []) (hl : l ≠ .eventFlag)
    (op : Operation) : k.ServesFront (k.after op) x l := by
  by_cases hobject : ∃ kind, op.object? = some (kind, x)
  · obtain ⟨kind, hkind⟩ := hobject
    cases op with
    | syscall call => exact (attends_perform h.1 hp hkind).servesFront hp hl
    | _ => cases hkind
  by_cases hdeletes : ∃ kind, op.deletes? = some (kind, x)
  · obtain ⟨kind, hkind⟩ := hdeletes
    cases op with
    | syscall call =>
      have hcode : KernelError.waitDeleted.code ≠ 0 := by decide
      refine .of_nobody fun w hw => not_awarded hp hw hcode ?_
      exact thread?_of_deletes (l := l) hkind (List.ne_nil_of_mem hw) w.thread
    | _ => cases hkind
  cases hexpires : op.expires with
  | true =>
    refine .of_nobody fun w hw => ?_
    cases op with
    | advanceClock ticks =>
      exact not_awarded_expireTimeouts (k := { k with clock := k.clock.advance ticks })
        (hp.sameRecords (.of_objects rfl)) hn hw
    | expireTimeouts => exact not_awarded_expireTimeouts hp hn hw
    | _ => cases hexpires
  | false =>
    refine .of_nobody fun w hw => ?_
    rintro ⟨t', ht', hdead, hidle, -⟩
    rcases waitsOn_after h hn hp (not_exists.mp hobject) (not_exists.mp hdeletes) hexpires hw ht' with hdead' | hwait
    · cases hdead.symm.trans hdead'
    · rw [hidle] at hwait
      cases hwait

end Kernel

/-! ### Nobody gets past a queue -/

/-- The queue in which those stand who ask for the same as the call. -/
def Syscall.claims? : Syscall → Option (ObjectId × Line)
  | waitSemaphore id .. | pollSemaphore id _ => some (id, .semaphore)
  | lockMutex id .. | tryLockMutex id _ => some (id, .mutex)
  | sendPipe id .. | trySendPipe id _ => some (id, .senders)
  | receivePipe id .. | tryReceivePipe id _ => some (id, .receivers)
  | _ => none

namespace Kernel

variable {k : Kernel} {x : ObjectId} {l : Line} {α : Type}

/-- The call is refused or has its caller wait. -/
def Stalls {α : Type} (blocked : α → Prop) (r : Reply α) : Prop := ∀ a, r.result = .ok a → blocked a

theorem stalls_refuse (blocked : α → Prop) (k : Kernel) (e : KernelError) : Stalls blocked (k.refuse e) := by
  intro a ha
  cases ha

/-- A call that parks its caller does not return. -/
theorem stalls_block {ρ : Type} (w : Wait) (request : ρ) (queue : Waiter ρ → Object) :
    Stalls (· = .blocked) (k.block w request queue) := by
  intro a ha
  obtain ⟨k', e, -, -, heq⟩ | ⟨t, timeout, -, -, -, heq⟩ := block_cases k w request queue <;> rw [heq] at ha
  · cases ha
  · exact (Except.ok.inj ha).symm

theorem Stalls.map {α β : Type} {blocked : α → Prop} {blocked' : β → Prop} {r : Reply α} {f : α → β}
    (h : Stalls blocked r) (hf : ∀ a, blocked a → blocked' (f a)) : Stalls blocked' (r.map f) := by
  intro b hb
  obtain ⟨result, k'⟩ := r
  cases result with
  | error e => cases hb
  | ok a =>
    obtain rfl := Except.ok.inj hb
    exact hf a (h a rfl)

theorem exists_of_line_ne (h : k.line x l ≠ []) : ∃ o, k.objects.get? x = some o ∧ o.line l ≠ [] := by
  cases ho : k.objects.get? x with
  | none => exact absurd (by rw [line, ho]; rfl) h
  | some o => exact ⟨o, rfl, line_eq ho l ▸ h⟩

theorem acquire?_of_queued {s : Semaphore} (h : s.waiters ≠ []) (need : Int32) : s.acquire? need = none := by
  unfold Semaphore.acquire?
  rw [if_neg]
  rintro ⟨hempty, -⟩
  exact h (List.isEmpty_iff.mp hempty)

/-- Nobody takes units past those who wait for some. -/
theorem stalls_waitSemaphore (h : k.line x .semaphore ≠ []) (need : Int32) (timeoutAddress : UInt32) (callbacks : Bool) :
    Stalls (· = .blocked) (k.waitSemaphore x need timeoutAddress callbacks) ∧
      Stalls (fun _ => False) (k.pollSemaphore x need) := by
  obtain ⟨o, ho, hline⟩ := exists_of_line_ne h
  cases o with
  | semaphore s =>
    have hs := ObjectTable.semaphore?_eq_some.mpr ho
    have hwaiters : s.waiters ≠ [] := fun heq => hline (by rw [Object.line, heq]; rfl)
    unfold waitSemaphore pollSemaphore
    rw [hs]
    dsimp only
    rw [acquire?_of_queued hwaiters need]
    constructor
    · split
      · exact stalls_refuse _ k _
      · exact stalls_block _ _ _
    · split <;> exact stalls_refuse _ k _
  | _ => exact absurd rfl hline

/-- A mutex that others wait for has an owner. -/
theorem contended_of_queued (hsound : k.Orderly) (h : k.line x .mutex ≠ []) (howner : k.ownerOf? x ≠ k.current)
    (count : Int32) : ∀ m m', k.attemptLock x count ≠ .ok (m, .acquired m') := by
  intro m m' hattempt
  obtain ⟨thread, hget, -, hcurrent, hlock⟩ := attemptLock_eq_ok hattempt
  have hm := ObjectTable.mutex?_eq_some.mpr hget
  rw [ownerOf?, hm, hcurrent] at howner
  rcases Mutex.tryLock_acquired hlock with ⟨hfree, -⟩ | ⟨howned, -⟩
  · refine h ?_
    rw [line_eq hget, Object.line, (hsound.sound hm).idle hfree]
    rfl
  · exact howner howned

/-- Nobody but its owner locks a mutex for which others wait. -/
theorem stalls_lockMutex (hsound : k.Orderly) (h : k.line x .mutex ≠ []) (howner : k.ownerOf? x ≠ k.current)
    (count : Int32) (timeoutAddress : UInt32) (callbacks : Bool) :
    Stalls (· = .blocked) (k.lockMutex x count timeoutAddress callbacks) ∧
      Stalls (fun _ => False) (k.tryLockMutex x count) := by
  have hcontended := contended_of_queued hsound h howner count
  unfold lockMutex tryLockMutex
  constructor
  · split
    · exact stalls_refuse _ k _
    · next hattempt => exact absurd hattempt (hcontended _ _)
    · exact stalls_block _ _ _
  · split
    · exact stalls_refuse _ k _
    · next hattempt => exact absurd hattempt (hcontended _ _)
    · exact stalls_refuse _ k _

theorem stalls_blockOnPipe (r : PipeRequest) (timeoutAddress : UInt32) (callbacks sending : Bool) :
    Stalls (· = .blocked) (k.blockOnPipe x r timeoutAddress callbacks sending) := by
  unfold blockOnPipe
  split
  · exact stalls_refuse _ k _
  · exact stalls_block _ _ _

/-- Nobody sends past those who wait to send. -/
theorem stalls_sendPipe (h : k.line x .senders ≠ []) (r : PipeRequest) (timeoutAddress : UInt32) (callbacks : Bool) :
    Stalls (· = .blocked) (k.sendPipe x r timeoutAddress callbacks) ∧ Stalls (fun _ => False) (k.trySendPipe x r) := by
  have htry : ∃ e, k.trySendPipe x r = k.refuse e := by
    unfold trySendPipe
    split
    · exact ⟨_, rfl⟩
    · next p hp =>
      have hsenders : p.senders.isEmpty = false := by
        obtain ⟨hid, hget, -⟩ := admitPipeRequest_eq_ok hp
        rw [← hid, line_eq hget] at h
        simpa [Object.line, WaitQueue.line] using h
      rw [hsenders]
      exact ⟨_, rfl⟩
  obtain ⟨e, htry⟩ := htry
  unfold sendPipe
  rw [htry]
  refine ⟨?_, stalls_refuse _ k e⟩
  split
  · exact stalls_blockOnPipe r timeoutAddress callbacks true
  · exact (stalls_refuse (fun _ => False) k e).map fun a ha => absurd ha id

/-- Nobody receives past those who wait to receive. -/
theorem stalls_receivePipe (h : k.line x .receivers ≠ []) (r : PipeRequest) (timeoutAddress : UInt32) (callbacks : Bool) :
    Stalls (· = .blocked) (k.receivePipe x r timeoutAddress callbacks) ∧
      Stalls (fun _ => False) (k.tryReceivePipe x r) := by
  have htry : ∃ e, k.tryReceivePipe x r = k.refuse e := by
    unfold tryReceivePipe
    split
    · exact ⟨_, rfl⟩
    · next p hp =>
      have hreceivers : p.receivers.isEmpty = false := by
        obtain ⟨hid, hget, -⟩ := admitPipeRequest_eq_ok hp
        rw [← hid, line_eq hget] at h
        simpa [Object.line, WaitQueue.line] using h
      rw [hreceivers]
      exact ⟨_, rfl⟩
  obtain ⟨e, htry⟩ := htry
  unfold receivePipe
  rw [htry]
  refine ⟨?_, stalls_refuse _ k e⟩
  split
  · exact stalls_blockOnPipe r timeoutAddress callbacks false
  · exact (stalls_refuse (fun _ => False) k e).map fun a ha => absurd ha id

/-- **A call that finds a queue is refused or blocks**; of a mutex, unless the caller owns it. -/
theorem blocked_of_queued (hsound : k.Orderly) {call : Syscall} (hcall : call.claims? = some (x, l))
    (h : k.line x l ≠ []) (howner : l = .mutex → k.ownerOf? x ≠ k.current) :
    Stalls (· = .outcome .blocked) (k.perform call) := by
  have hwaits : ∀ {r : Reply WaitOutcome}, Stalls (· = .blocked) r → Stalls (· = .outcome .blocked) (r.map Answer.outcome) :=
    fun hr => hr.map fun a ha => congrArg Answer.outcome ha
  have hfails : ∀ {r : Reply Unit}, Stalls (fun _ => False) r → Stalls (· = .outcome .blocked) (r.map fun _ => Answer.done) :=
    fun hr => hr.map fun a ha => absurd ha id
  cases call with
  | waitSemaphore y need timeoutAddress callbacks =>
    cases hcall; exact hwaits (stalls_waitSemaphore h need timeoutAddress callbacks).1
  | pollSemaphore y need => cases hcall; exact hfails (stalls_waitSemaphore h need 0 false).2
  | lockMutex y count timeoutAddress callbacks =>
    cases hcall; exact hwaits (stalls_lockMutex hsound h (howner rfl) count timeoutAddress callbacks).1
  | tryLockMutex y count => cases hcall; exact hfails (stalls_lockMutex hsound h (howner rfl) count 0 false).2
  | sendPipe y r timeoutAddress callbacks => cases hcall; exact hwaits (stalls_sendPipe h r timeoutAddress callbacks).1
  | trySendPipe y r => cases hcall; exact hfails (stalls_sendPipe h r 0 false).2
  | receivePipe y r timeoutAddress callbacks =>
    cases hcall; exact hwaits (stalls_receivePipe h r timeoutAddress callbacks).1
  | tryReceivePipe y r => cases hcall; exact hfails (stalls_receivePipe h r 0 false).2
  | _ => cases hcall

/-- **Waiters are served in their turn.** In every reachable state the queues of objects are in the order that the
attributes ask for. Every operation serves the front of a queue only, that of an event flag apart, and a call that finds
others in the queue for what it asks for does not get it at once; the owner of a mutex may lock it again. -/
theorem serviceOrder_run (config : KernelConfig) (memory : Memory) (operations : List Operation)
    (hids : (Kernel.new config memory).handedOut operations < 2 ^ 32 - 1) (x : ObjectId) (l : Line) :
    let k := (Kernel.new config memory).run operations
    (Kernel.new config memory).InOrder operations x l ∧
    (l ≠ .eventFlag → ∀ op, k.ServesFront (k.after op) x l) ∧
    ∀ call a, call.claims? = some (x, l) → k.line x l ≠ [] → (l = .mutex → k.ownerOf? x ≠ k.current) →
      (k.perform call).result = .ok a → a = .outcome .blocked := by
  intro k
  have horderly : k.Orderly := orderly_run config memory operations hids
  refine ⟨inOrder_run config memory operations hids x l, fun hl op => ?_, fun call a hcall hline howner hresult => ?_⟩
  · exact servesFront_after horderly.coherent (nodup_started_run config memory operations) horderly.placed hl op
  · exact blocked_of_queued horderly hcall hline howner a hresult

/-- Three threads wait for units of a semaphore that serves by priority. The first one to come has lowered its priority
before and raises it while it waits. -/
def crowdedSemaphore : List Operation :=
  [.syscall (.createThread "first" 0x08900000 20 0x1000 0), .syscall (.createThread "second" 0x08900000 24 0x1000 0),
    .syscall (.createThread "third" 0x08900000 24 0x1000 0), .syscall (.createThread "giver" 0x08900000 48 0x1000 0),
    .syscall (.createSemaphore "units" 0x100 0 4), .syscall (.startThread 1 0 0), .syscall (.startThread 2 0 0),
    .syscall (.startThread 3 0 0), .syscall (.startThread 4 0 0), .dispatch, .changePriority 1 40,
    .syscall (.waitSemaphore 5 1 0 false), .dispatch, .syscall (.waitSemaphore 5 1 0 false), .dispatch,
    .syscall (.waitSemaphore 5 1 0 false), .dispatch, .changePriority 1 16]

/-- The first to come stands last; two units go to the others, in the order in which they came, and nobody else gets one
before that. -/
theorem serviceOrder_run_crowdedSemaphore :
    let k := (Kernel.new {} {}).run crowdedSemaphore
    (Kernel.new {} {}).handedOut crowdedSemaphore < 2 ^ 32 - 1 ∧
      k.line 5 .semaphore = [⟨3, 24, ()⟩, ⟨2, 24, ()⟩, ⟨1, 40, ()⟩] ∧
      (Kernel.new {} {}).InOrder crowdedSemaphore 5 .semaphore ∧
      k.wokenUntil (k.after (.syscall (.signalSemaphore 5 2))) = [3, 2] ∧
      k.ServesFront (k.after (.syscall (.signalSemaphore 5 2))) 5 .semaphore ∧
      (k.perform (.waitSemaphore 5 1 0 false)).result = .ok (.outcome .blocked) := by
  have hids : (Kernel.new {} {}).handedOut crowdedSemaphore < 2 ^ 32 - 1 := handedOut_lt (by decide)
  obtain ⟨horder, hserves, -⟩ := serviceOrder_run {} {} crowdedSemaphore hids 5 .semaphore
  exact ⟨hids, by decide +kernel, horder, by decide +kernel, hserves (by decide) _, by decide +kernel⟩

end Kernel

end GuestKernel
