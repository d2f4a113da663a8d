/-
# Callbacks are transparent

A callback borrows the context of the thread it interrupts. While it runs nobody else gets the processor and nobody is
parked, so that the wait of the interrupted thread can end but no other can take its place. When the callback returns,
the thread has the registers it had, with the result of its wait in `v0` if that ended meanwhile; a wait that goes on is
on record as it was, and so are the thread's places in the queues.

| while a callback runs | |
| --- | --- |
| no other callback runs, and its thread stays on the processor unless it dies | `Move.processor` |
| its thread keeps its places in queues, or is about to be woken | `Move.placesIn` |
| its thread keeps its context, and its wait until that ends | `Interrupted.step` |
| nobody is parked | `waitOf?_after` |

Source: specification, 4.6.
-/

import GuestKernel.Proofs.ThreadContexts
import GuestKernel.Proofs.WaitPlaces

namespace GuestKernel

namespace Kernel

/-- The same thread has the processor, and the same callback runs. -/
def SameProcessor (k k' : Kernel) : Prop := k'.current = k.current ∧ k'.delivering = k.delivering

/-- Waking a thread leaves the processor alone. -/
theorem sameProcessor_wake (k : Kernel) (id : ThreadId) (result : Int32) : SameProcessor k (k.wake id result) := by
  obtain ⟨e, heq, -⟩ | ⟨t, w, rfl, ht, hw⟩ := wake_cases k id result
  · rw [heq]
    exact ⟨rfl, rfl⟩
  · have hq := wake_of_waiting ht hw result
    have hawaken : SameProcessor k (k.awaken t result) := by
      unfold awaken
      split
      · exact ⟨rfl, rfl⟩
      · exact ⟨current_schedule .., delivering_schedule ..⟩
    exact ⟨hq.current.trans hawaken.1, hq.delivering.trans hawaken.2⟩

theorem sameProcessor_detach (k : Kernel) (id : ThreadId) (w : Wait) : SameProcessor k (k.detach id w) := by
  obtain h | ⟨e, -, h⟩ | ⟨o, -, -, -, -, h⟩ := detach_cases k id w <;> rw [h] <;> exact ⟨rfl, rfl⟩

theorem sameProcessor_launch (k : Kernel) (t : Thread) (context : ContextId) : SameProcessor k (k.launch t context) := by
  obtain ⟨started, h⟩ := launch_eq k t context
  rw [h]
  exact ⟨current_schedule .., delivering_schedule ..⟩

theorem sameProcessor_unhold (k : Kernel) (t : Thread) : SameProcessor k (k.unhold t) := by
  unfold unhold
  dsimp only
  split
  · exact ⟨current_schedule .., delivering_schedule ..⟩
  · exact ⟨rfl, rfl⟩

theorem sameProcessor_reprioritise (k : Kernel) (t : Thread) (priority : UInt32) :
    SameProcessor k (k.reprioritise t priority) := by
  unfold reprioritise
  dsimp only
  split
  · exact ⟨current_schedule .., delivering_schedule ..⟩
  · exact ⟨rfl, rfl⟩

/-- A thread that dies leaves the processor; nothing else about it changes. -/
theorem processor_retire (k : Kernel) (t : Thread) (exitCode : Int32) : (k.retire t exitCode).delivering = k.delivering ∧
    (k.retire t exitCode).current = if k.current = some t.id then none else k.current := by
  obtain ⟨-, h⟩ | ⟨w, -, h⟩ := retire_eq k t exitCode <;> rw [h]
  · exact ⟨rfl, rfl⟩
  · obtain ⟨hcurrent, hdelivering⟩ := sameProcessor_detach (k.fell t exitCode) t.id w
    exact ⟨hdelivering, hcurrent⟩

end Kernel

/-- The label of a move that leaves the processor and the callback that runs alone. -/
def Label.SparesProcessor : Label → Prop
  | park _ _ | retire _ _ | preempt | run | interrupt _ | endDelivery _ => False
  | _ => True

namespace Move

variable {l : Label} {s s' : Stage} {d : Delivery} {id : ThreadId} {t' : Thread} {w : Wait}

/-- Moves that are not about the processor leave it alone. -/
theorem sameProcessor (hm : Move l s s') (hl : l.SparesProcessor) : s.kernel.SameProcessor s'.kernel := by
  cases hm with
  | quiet hq | load hq => exact ⟨hq.current, hq.delivering⟩
  | resource hq | reserve hq => exact ⟨hq.current, hq.delivering⟩
  | create | erase | change | enqueue | edit | doze | strip | bury | hold => exact ⟨rfl, rfl⟩
  | @launch k L t registers =>
    have hcontext := Kernel.sameObjects_allocateContext k t.entry registers
    have hlaunch := Kernel.sameProcessor_launch (k.allocateContext t.entry registers) t k.contexts.freshId
    exact ⟨hlaunch.1.trans hcontext.current, hlaunch.2.trans hcontext.delivering⟩
  | detach => exact Kernel.sameProcessor_detach ..
  | wake => exact Kernel.sameProcessor_wake ..
  | reprioritise => exact Kernel.sameProcessor_reprioritise ..
  | unhold => exact Kernel.sameProcessor_unhold ..
  | _ => cases hl

/-- **While a callback runs it goes on running**, and the processor is taken from a thread only by its death. -/
theorem processor (hm : Move l s s') (hl : ¬ l.EndsDelivery) (hd : s.kernel.delivering = some d) :
    s'.kernel.delivering = some d ∧
      (s'.kernel.current = s.kernel.current ∨ ∃ id e, l = .retire id e ∧ s.kernel.current = some id) := by
  have hsame := hm.sameProcessor
  cases hm with
  | park hnone | preempt hnone | run hnone | interrupt hnone => cases hnone.symm.trans hd
  | @retire k t exitCode =>
    obtain ⟨hdelivering, hcurrent⟩ := Kernel.processor_retire k t exitCode
    refine ⟨hdelivering.trans hd, ?_⟩
    rw [hcurrent]
    by_cases hc : k.current = some t.id
    · exact Or.inr ⟨t.id, exitCode, rfl, hc⟩
    · exact Or.inl (if_neg hc)
  | endDelivery | dropDelivery => exact absurd trivial hl
  | _ => exact ⟨(hsame trivial).2.trans hd, Or.inl (hsame trivial).1⟩

/-- While a callback runs a thread in transit stays so until it is woken. -/
theorem mem_transit (hm : Move l s s') (hd : s.kernel.delivering = some d) (hmem : id ∈ s.transit) :
    id ∈ s'.transit ∨ ∃ result, l = .wake id result := by
  cases hm with
  | erase | change | detach | retire => cases hmem
  | enqueue _ _ _ _ hnone | park hnone | doze _ _ _ hnone => cases hnone.symm.trans hd
  | wake =>
    rcases List.mem_cons.mp hmem with rfl | hmem
    · exact Or.inr ⟨_, rfl⟩
    · exact Or.inl hmem
  | _ => exact Or.inl hmem

/-- Whoever is woken does not wait. -/
theorem wait_of_wake {result : Int32} (hm : Move (.wake id result) s s')
    (h : s'.kernel.thread? id = some t') : t'.wait = none := by
  cases hm with
  | wake =>
    rw [Kernel.thread?_wake, if_pos rfl] at h
    obtain ⟨t, -, rfl⟩ := Option.map_eq_some_iff.mp h
    exact t.wait_woken result

theorem dead_of_retire {exitCode : Int32} (hm : Move (.retire id exitCode) s s')
    (h : s'.kernel.thread? id = some t') : t'.status.dead = true := by
  cases hm with
  | retire =>
    rw [Kernel.thread?_retire] at h
    cases h
    rfl

theorem delivering_of_park (hm : Move (.park id w) s s') : s.kernel.delivering = none := by
  cases hm with
  | park hd => exact hd

/-- While a callback runs whoever waits has waited before. -/
theorem waitOf?_eq (hm : Move l s s') (hc : s.kernel.Coherent) (hd : s.kernel.delivering = some d)
    (hw : s'.kernel.waitOf? id = some w) : s.kernel.waitOf? id = some w := by
  obtain ⟨t', ht', hw'⟩ := Kernel.waitOf?_eq_some.mp hw
  obtain ⟨t, ht, hstep⟩ | ⟨-, hnew, -⟩ := hm.thread hc ht'
  · obtain hsame | hnone | ⟨w, hpark⟩ := hstep.wait_eq
    · exact Kernel.waitOf?_eq_some.mpr ⟨t, ht, hsame.symm.trans hw'⟩
    · rw [hnone] at hw'
      cases hw'
    · subst hpark
      cases hm.delivering_of_park.symm.trans hd
  · have hnone : t'.wait = none := hnew.2.1
    rw [hnone] at hw'
    cases hw'

end Move

/-- Only the return from a callback ends it. -/
theorem Operation.Permits.not_endsDelivery {o : Operation} {k : Kernel} {l : Label} (h : o.Permits k l)
    (ho : o.finishes = false) : ¬ l.EndsDelivery := by
  intro hl
  cases l with
  | endDelivery d =>
    cases h with
    | touch h =>
      rcases h with h | ⟨kind, id, -, h⟩ | ⟨kind, id, -, h⟩ | ⟨-, h⟩ | ⟨h, -⟩ | ⟨-, h⟩
      · exact h
      · exact h
      · exact h
      · exact h
      · rw [ho] at h
        cases h
      · exact h
  | _ => exact hl

/-! ### While a callback runs -/

/-- What is on record of a thread as a callback interrupts it. -/
structure Interruption where
  delivery : Delivery
  context : ContextId
  wait : Option Wait
  places : ObjectId → List (Option UInt32 × Demand)

namespace Kernel

variable {k k' : Kernel} {l : Label} {s s' : Stage} {t : Thread} {i : Interruption} {o : Operation} {id : ThreadId}
  {d : Delivery} {context : ContextId} {invocation : Invocation}

/-- The callback runs. Its thread, if it is alive, is on the processor with its context; either its wait is over, or it
is on record as it was and the thread stands in the queues where it stood, unless it is about to be woken. -/
structure Interrupted (k : Kernel) (transit : List ThreadId) (i : Interruption) : Prop where
  delivering : k.delivering = some i.delivery
  /-- No other thread gets the id. -/
  handed : i.delivery.thread.toNat < k.nextId.toNat
  thread : ∀ t, k.thread? i.delivery.thread = some t → t.status.dead = false →
    k.current = some i.delivery.thread ∧ t.context = some i.context ∧ (t.wait = none ∨ t.wait = i.wait ∧
      (i.delivery.thread ∈ transit ∨ ∀ x, k.placesIn x i.delivery.thread = i.places x))

/-- The thread on the processor has been started and lives. -/
theorem Coherent.active_of_current (hc : k.Coherent) (hcur : k.current = some id)
    (ht : k.thread? id = some t) : t.isDormant = false := by
  obtain ⟨t', ht', hs⟩ := hc.current id hcur
  rw [ht, Option.some.injEq] at ht'
  rw [← ht'] at hs
  unfold Thread.isDormant
  split at hs
  · rcases hs with hs | hs <;> rw [hs] <;> rfl
  · rw [hs]
    rfl

/-- **Each move leaves the interrupted thread as it was**, or ends its wait or its life. -/
theorem Interrupted.step (h : s.kernel.Interrupted s.transit i) (hc : s.kernel.Coherent) (hjoin : s.kernel.Unjoined)
    (hm : Move l s s') (hl : ¬ l.EndsDelivery) (hfresh : l.Fresh s.kernel)
    (hbound : ∀ o, l = .create o → s.kernel.nextId.toNat + 1 < 2 ^ 32) : s'.kernel.Interrupted s'.transit i := by
  obtain ⟨hdelivering, hcurrent⟩ := hm.processor hl h.delivering
  refine ⟨hdelivering, Nat.lt_of_lt_of_le h.handed (nextId_le_step hm hbound).1, fun t' ht' halive => ?_⟩
  obtain ⟨t, ht, hstep⟩ | ⟨-, -, hid⟩ := hm.thread hc ht'
  · obtain ⟨hcur, hcontext, hwait⟩ := h.thread t ht (hstep.dead_eq_false halive)
    have hretire : ∀ e, l ≠ .retire i.delivery.thread e := by
      rintro e rfl
      have hdead := hm.dead_of_retire ht'
      rw [halive] at hdead
      cases hdead
    refine ⟨?_, (hstep.context_of_active (hc.active_of_current hcur ht)).trans hcontext, ?_⟩
    · obtain heq | ⟨id, e, hle, hid⟩ := hcurrent
      · exact heq.trans hcur
      · rw [hcur, Option.some.injEq] at hid
        exact absurd (hid ▸ hle) (hretire e)
    · obtain hsame | hnone | ⟨w, hpark⟩ := hstep.wait_eq
      · obtain hnone | ⟨heq, hplaces⟩ := hwait
        · exact Or.inl (hsame.trans hnone)
        · obtain hmem | hplaces := hplaces
          · obtain hmem' | ⟨result, rfl⟩ := hm.mem_transit h.delivering hmem
            · exact Or.inr ⟨hsame.trans heq, Or.inl hmem'⟩
            · exact Or.inl (hm.wait_of_wake ht')
          · refine Or.inr ⟨hsame.trans heq, ?_⟩
            exact (hm.placesIn h.delivering hjoin hfresh hretire).imp_right fun hsame x => (hsame x).trans (hplaces x)
      · exact Or.inl hnone
      · subst hpark
        cases hm.delivering_of_park.symm.trans h.delivering
  · have hlt := h.handed
    rw [← id_of_thread? ht', hid] at hlt
    exact absurd hlt (Nat.lt_irrefl _)

/-- An operation that is no return from the callback and cancels nothing in vain leaves the interrupted thread as it was,
or ends its wait or its life. -/
theorem interrupted_after (h : (k.Coherent ∧ k.IdsBelow) ∧ k.Unjoined ∧ k.Interrupted [] i) (hn : k.started.Nodup)
    (hbound : k.SparesLastId o) (ho : o.finishes = false) (hcancel : k.failsCancel o = false) :
    ((k.after o).Coherent ∧ (k.after o).IdsBelow) ∧ (k.after o).Unjoined ∧ (k.after o).Interrupted [] i := by
  obtain ⟨hc, L, hafter, hL⟩ := permitted_after
    (P := fun s => s.kernel.Unjoined ∧ s.kernel.Interrupted s.transit i) h.1 hn hbound (by
      rintro l s s' hl hc hfresh hm ⟨hjoin, hs⟩
      refine ⟨hjoin.step hc hm, hs.step hc hjoin hm (hl.not_endsDelivery ho) hfresh ?_⟩
      rintro x rfl
      cases hm with
      | create hid => exact hl.room hid hbound) h.2
  rw [hL hcancel] at hafter
  exact ⟨hc, hafter⟩

/-- **While a callback runs no operation parks a thread.** -/
theorem waitOf?_after (h : k.Coherent ∧ k.IdsBelow) (hd : k.delivering = some d) (hn : k.started.Nodup)
    (hbound : k.SparesLastId o) (ho : o.finishes = false) (x : ThreadId)
    (w : Wait) (hw : (k.after o).waitOf? x = some w) : k.waitOf? x = some w := by
  obtain ⟨-, L, ⟨-, hafter⟩, -⟩ := permitted_after (P := fun s => s.kernel.delivering = some d ∧
      ∀ x w, s.kernel.waitOf? x = some w → k.waitOf? x = some w) h hn hbound (by
    rintro l s s' hl hc - hm ⟨hd, hs⟩
    exact ⟨(hm.processor (hl.not_endsDelivery ho) hd).1, fun x w hw => hs x w (hm.waitOf?_eq hc hd hw)⟩)
    ⟨hd, fun x w hw => hw⟩
  exact hafter x w hw

/-- A callback has the processor to itself: dispatch picks nobody and changes nothing, and nobody can be parked. -/
structure Occupied (k : Kernel) : Prop where
  dispatch : k.dispatch.1 = none ∧ Noted k k.dispatch.2
  beginWait : ∀ w, k.beginWait w = k.refuse .illegalContext

theorem occupied_of_delivering (hd : k.delivering = some d) : k.Occupied := by
  refine ⟨?_, fun w => ?_⟩
  · unfold Kernel.dispatch
    rw [hd]
    exact ⟨rfl, Noted.note k _⟩
  · unfold Kernel.beginWait
    rw [hd]
    rfl

/-! ### The interruption -/

/-- Threads that are resumed get no callback. -/
theorem action_runFirst {entries : List ReadyEntry} {dispatch : Dispatch} (h : (k.runFirst entries).1 = some dispatch) :
    dispatch.action = .resume := by
  induction entries generalizing k with
  | nil => cases h
  | cons e rest ih =>
    unfold runFirst at h
    split at h
    · exact ih h
    · dsimp only at h
      split at h
      · cases h
        rfl
      · exact ih h

/-- What dispatch does when it runs a callback. -/
theorem dispatch_runCallback
    (h : k.dispatch.1 = some ⟨id, context, .runCallback invocation⟩) : k.delivering = none ∧ ∃ t c,
      t.id = id ∧ k.preempt.thread? id = some t ∧ t.admitsCallbacks = true ∧ t.context = some context ∧
      k.preempt.objects.get? c.id = some (.callback c) ∧ k.dispatch.2 =
        ((k.preempt.put (.callback c.taken)).note (.callbackDelivered c.id id)).interrupt t
          ⟨id, c.id, k.preempt.contexts.registers context, t.status.waiting⟩ := by
  unfold Kernel.dispatch at h ⊢
  cases hd : k.delivering with
  | some d =>
    rw [hd] at h
    cases h
  | none =>
    simp only [hd] at h ⊢
    cases hbest : bestOf k.preempt.deliverable with
    | none =>
      rw [hbest] at h
      cases action_runFirst h
    | some candidate =>
      obtain ⟨t, c⟩ := candidate
      obtain ⟨ht, ha, hc⟩ := of_mem_deliverable (mem_of_bestOf hbest)
      simp only [hbest, Kernel.deliver] at h ⊢
      cases hx : t.context with
      | none =>
        simp only [hx] at h
        cases action_runFirst h
      | some c₀ =>
        simp only [hx] at h ⊢
        cases h
        exact ⟨trivial, t, c, rfl, ht, ha, hx, hc, rfl⟩

/-- **The record of a thread as a callback interrupts it** is that from before the dispatch. -/
theorem interrupted_dispatch (hc : k.Coherent ∧ k.IdsBelow)
    (h : k.dispatch.1 = some ⟨id, context, .runCallback invocation⟩) : ∃ t callback,
      k.thread? id = some t ∧ t.context = some context ∧ k.dispatch.2.Interrupted []
        ⟨⟨id, callback, k.contexts.registers context, t.wait.isSome⟩, context, t.wait, fun x => k.placesIn x id⟩ := by
  obtain ⟨hd, t₀, c, hid, ht₀, ha, hx, hcallback, heq⟩ := dispatch_runCallback h
  subst hid
  have hpreempt := rearranges_preempt k
  obtain ⟨t, ht, hstep⟩ := step_preempt ht₀
  obtain ⟨hwait, hcontext⟩ := hstep.keeps_wait trivial
  have hsound := (hc.1.preempt hd).threads t₀.id t₀ ht₀
  have hfrom : t₀.status.waiting = t.wait.isSome := by
    rw [← hwait, Bool.eq_iff_iff]
    exact hsound.wait.symm
  refine ⟨t, c.id, ht, hcontext.symm.trans hx, ?_⟩
  rw [heq, hfrom, hpreempt.contexts]
  -- The callback's notification is taken, which no thread and no queue notices.
  have htaken : ((k.preempt.put (.callback c.taken)).note (.callbackDelivered c.id t₀.id)).thread? t₀.id = some t₀ :=
    (thread?_put_of_kind_ne (o := .callback c) (.callback c.taken) hcallback nofun rfl rfl t₀.id).trans ht₀
  have hplaces : ∀ x, ((k.preempt.put (.callback c.taken)).note (.callbackDelivered c.id t₀.id)).placesIn x t₀.id =
      k.placesIn x t₀.id := by
    intro x
    refine ((placesIn_put (.callback c.taken) x).trans ?_).trans (hpreempt.placesIn x)
    split
    · next hcx =>
      rw [← hcx]
      exact (placesIn_of_get? (o := .callback c) hcallback).symm
    · rfl
  have hnext : ((k.preempt.put (.callback c.taken)).note (.callbackDelivered c.id t₀.id)).nextId = k.nextId :=
    hpreempt.nextId
  generalize (k.preempt.put (.callback c.taken)).note (.callbackDelivered c.id t₀.id) = k₀ at htaken hplaces hnext ⊢
  have hinterrupt := rearranges_interrupt htaken ⟨t₀.id, c.id, k.contexts.registers context, t.wait.isSome⟩
  refine ⟨rfl, ?_, fun t' ht' _ => ?_⟩
  · rw [hinterrupt.nextId, hnext]
    obtain hlt | hnone := hc.2 t₀.id
    · exact hlt
    · rw [ObjectTable.thread?_eq_some.mp ht] at hnone
      cases hnone
  · obtain ⟨t₁, ht₁, hstep₁⟩ := step_interrupt htaken ht'
    obtain rfl : t₀ = t₁ := Option.some.inj (htaken.symm.trans ht₁)
    obtain ⟨hwait₁, hcontext₁⟩ := hstep₁.keeps_wait trivial
    refine ⟨rfl, hcontext₁.trans hx, Or.inr ⟨hwait₁.trans hwait, Or.inr fun x => ?_⟩⟩
    exact (hinterrupt.placesIn x).trans (hplaces x)

/-! ### The return -/

/-- A callback may be gone from its owner's list, and nothing else about a thread, its places in queues or the contexts
differs. -/
structure Forgets (k k' : Kernel) : Prop where
  contexts : k'.contexts = k.contexts
  thread : ∀ x t, k.thread? x = some t → ∃ t', k'.thread? x = some t' ∧ t.SameLife t'
  places : ∀ x id, k'.placesIn x id = k.placesIn x id

theorem Forgets.of_objects (hx : k'.contexts = k.contexts) (h : k'.objects = k.objects) : Forgets k k' := by
  refine ⟨hx, fun x t ht => ⟨t, ?_, rfl⟩, fun x id => placesIn_of_objects h x⟩
  rw [thread?, h]
  exact ht

/-- What is forgotten twice is forgotten. -/
theorem Forgets.trans {k₁ k₂ k₃ : Kernel} (h : Forgets k₁ k₂) (h' : Forgets k₂ k₃) : Forgets k₁ k₃ := by
  refine ⟨h'.contexts.trans h.contexts, fun x t ht => ?_, fun x id => (h'.places x id).trans (h.places x id)⟩
  obtain ⟨t₁, ht₁, hlife⟩ := h.thread x t ht
  obtain ⟨t₂, ht₂, hlife'⟩ := h'.thread x t₁ ht₁
  refine ⟨t₂, ht₂, ?_⟩
  unfold Thread.SameLife at hlife hlife' ⊢
  rw [hlife', hlife]

/-- A thread that changes nothing of its life is not forgotten. -/
theorem forgets_putThread (t' : Thread) (ht : k.thread? t.id = some t) (hlife : t.SameLife t') :
    Forgets k (k.putThread t') := by
  have hid : t'.id = t.id := by rw [hlife]
  refine ⟨rfl, fun x u hu => ?_, fun x id => placesIn_putThread t' (hid.symm ▸ ht) (by rw [hlife]) x⟩
  rw [thread?_putThread]
  by_cases hx : t'.id = x
  · rw [if_pos hx]
    obtain rfl : t = u := Option.some.inj (ht.symm.trans ((hid.symm.trans hx) ▸ hu))
    exact ⟨t', rfl, hlife⟩
  · rw [if_neg hx]
    exact ⟨u, hu, rfl⟩

theorem forgets_forgetCallback (k : Kernel) (c : Callback) : Forgets k (k.forgetCallback c) := by
  unfold forgetCallback
  split
  · next t ht => exact forgets_putThread (t := t) _ (thread?_id ht) rfl
  · exact .of_objects rfl rfl

/-- Unregistering a callback forgets that callback alone. -/
theorem forgets_unregister (k : Kernel) (id : ObjectId) : Forgets k (k.unregister .callback id).kernel := by
  obtain h | ⟨o, ho, rfl, hkind, h⟩ := unregister_cases k .callback id <;> rw [h]
  · exact .of_objects rfl rfl
  · obtain ⟨c, rfl⟩ : ∃ c, o = .callback c := by
      cases o <;> first | exact ⟨_, rfl⟩ | cases hkind
    refine ⟨rfl, fun x t ht => ⟨t, ?_, rfl⟩, fun x id => ?_⟩
    · refine (ObjectTable.thread?_erase x).trans ((if_neg ?_).trans ht)
      rintro rfl
      rw [ObjectTable.thread?_eq_some.mp ht] at ho
      cases ho
    · refine (placesIn_erase (k := k) (Object.callback c).id x k.started).trans ?_
      split
      · next hx =>
        rw [← hx]
        exact (placesIn_of_get? ho).symm
      · rfl

/-- A callback that asks to be deleted is all that is forgotten. -/
theorem forgets_retireCallback (k : Kernel) (id : ObjectId) (value : Int32) : Forgets k (k.retireCallback id value) := by
  have hdelete : ∀ k : Kernel, Forgets k (k.deleteCallback id).kernel := by
    intro k
    unfold deleteCallback
    split
    · exact .of_objects rfl rfl
    · next c _ => exact (forgets_forgetCallback k c).trans (forgets_unregister _ id)
  unfold retireCallback
  split
  · exact .of_objects rfl rfl
  · have hnote : Forgets k (k.note (.callbackRetired id value)) := .of_objects rfl rfl
    have h := hnote.trans (hdelete (k.note (.callbackRetired id value)))
    split
    · next hr =>
      rw [hr] at h
      exact h
    · next hr =>
      rw [hr] at h
      exact h.trans (.of_objects rfl rfl)

variable {d : Delivery} {context : ContextId}

/-- **A callback that returns leaves the thread its registers**, and `v0` with the result of a wait that is over. -/
theorem register_restoreContext (hx : t.context = some context) (hlive : (k.contexts.get? context).isSome = true)
    (r : Fin 32) : (k.restoreContext d t).contexts.register context r =
      if r = Register.v0 ∧ d.fromWait = true ∧ t.status.waiting = false then t.wakeResult.toUInt32
      else d.saved.get r := by
  have hsaved := Contexts.register_setRegisters hlive d.saved r
  rw [← contexts_setRegisters] at hsaved
  have hlive' : ((k.setRegisters context d.saved).contexts.get? context).isSome = true :=
    ((Reloads.setRegisters k context d.saved).contexts context).trans hlive
  unfold restoreContext
  rw [hx]
  dsimp only
  by_cases hover : d.fromWait = true ∧ ¬ t.status.waiting = true
  · rw [if_pos hover]
    have hset := Contexts.register_setRegister_self hlive' Register.v0.isLt t.wakeResult.toUInt32 r
    rw [contexts_setRegister, hset]
    by_cases hr : r = Register.v0
    · rw [hr, if_pos rfl, if_pos ⟨rfl, hover.1, by simpa using hover.2⟩]
    · rw [if_neg fun h => hr (Fin.ext h.symm), if_neg fun h => hr h.1, hsaved]
  · rw [if_neg hover, hsaved, if_neg fun h => hover ⟨h.2.1, by rw [h.2.2]; decide⟩]

/-- The return from a callback, for a thread with a live context. -/
theorem finishCallback_eq (hd : k.delivering = some d) (ht : k.thread? d.thread = some t) (hx : t.context = some context)
    (hlive : (k.contexts.get? context).isSome = true) (value : Int32) : (k.finishCallback value).result = .ok () ∧
      ∃ t', (k.finishCallback value).kernel.thread? d.thread = some t' ∧ t.SameLife t' ∧
        (∀ x id, (k.finishCallback value).kernel.placesIn x id = k.placesIn x id) ∧
        ((k.finishCallback value).kernel.contexts.get? context).isSome = true ∧
        ∀ r : Fin 32, (k.finishCallback value).kernel.contexts.register context r =
          if r = Register.v0 ∧ d.fromWait = true ∧ t.status.waiting = false then t.wakeResult.toUInt32
          else d.saved.get r := by
  have hretire := forgets_retireCallback k d.callback value
  obtain ⟨t₁, ht₁, hlife⟩ := hretire.thread d.thread t ht
  have hx₁ : t₁.context = some context := by rw [hlife, hx]
  have hstatus : t₁.status = t.status := by rw [hlife]
  have hresult : t₁.wakeResult = t.wakeResult := by rw [hlife]
  have hlive₁ : ((k.retireCallback d.callback value).contexts.get? context).isSome = true := by
    rw [hretire.contexts, hlive]
  unfold finishCallback
  rw [hd]
  dsimp only
  generalize k.retireCallback d.callback value = k₁ at hretire ht₁ hlive₁ ⊢
  have hq := Reloads.restoreContext k₁ d t₁
  have hregisters := register_restoreContext (d := d) hx₁ hlive₁
  have hlive₂ := (hq.contexts context).trans hlive₁
  rw [hstatus, hresult] at hregisters
  have ht₂ : ((k₁.restoreContext d t₁).endDelivery d).thread? d.thread = some t₁ := (hq.thread? d.thread).trans ht₁
  have hplaces : ∀ x id, ((k₁.restoreContext d t₁).endDelivery d).placesIn x id = k.placesIn x id :=
    fun x id => (placesIn_of_objects hq.objects x).trans (hretire.places x id)
  rw [ht₁]
  dsimp only
  split
  · exact ⟨rfl, t₁, ht₂, hlife, hplaces, hlive₂, hregisters⟩
  · have hput := forgets_putThread { t₁ with checksCallbacks := false } (thread?_id ht₂) rfl
    obtain ⟨t₃, ht₃, hlife₃⟩ := hput.thread d.thread t₁ ht₂
    refine ⟨rfl, t₃, ht₃, ?_, fun x id => (hput.places x id).trans (hplaces x id), hlive₂, hregisters⟩
    unfold Thread.SameLife at hlife hlife₃ ⊢
    rw [hlife₃, hlife]

/-! ### Runs -/

/-- No callback returns, and no call that cancels the waits on an object fails. -/
def Undisturbed (k : Kernel) (o : Operation) : Prop := o.finishes = false ∧ k.failsCancel o = false

instance (k : Kernel) (o : Operation) : Decidable (k.Undisturbed o) :=
  inferInstanceAs (Decidable (_ ∧ _))

/-- The interrupted thread stays as it was through a run, unless its wait or its life ends. -/
theorem interrupted_run {during : List Operation}
    (h : (k.Coherent ∧ k.IdsBelow) ∧ k.Unjoined ∧ k.Interrupted [] i) (hn : k.started.Nodup)
    (hbound : k.nextId.toNat + k.handedOut during < 2 ^ 32) (hduring : k.Along Undisturbed during) :
    ((k.run during).Coherent ∧ (k.run during).IdsBelow) ∧ (k.run during).Unjoined ∧ (k.run during).Interrupted [] i :=
  run_preserves (P := fun k => (k.Coherent ∧ k.IdsBelow) ∧ k.Unjoined ∧ k.Interrupted [] i)
    (fun _ _ hn hbound ho hk => interrupted_after hk hn hbound ho.1 ho.2) during hn hbound hduring h

/-- How a thread with a context goes on after a callback, in `k'`, compared with how it was before, in `k`. -/
structure Resumes (k k' : Kernel) (id : ThreadId) (context : ContextId) (t t' : Thread) : Prop where
  before : k.thread? id = some t ∧ t.context = some context
  after : k'.thread? id = some t' ∧ t'.context = some context ∧ (k'.contexts.get? context).isSome = true
  /-- The registers are those from before, but for the result of a wait that ended meanwhile. -/
  registers : ∀ r : Fin 32, k'.contexts.register context r =
    if r = Register.v0 ∧ t.wait.isSome = true ∧ t'.wait = none then t'.wakeResult.toUInt32
    else k.contexts.register context r
  /-- A wait that goes on is the same wait, and the thread stands in the queues where it stood. -/
  waits : ∀ w, t'.wait = some w → t.wait = some w ∧ t'.status = .onlyWaiting ∧ ∀ x, k'.placesIn x id = k.placesIn x id

/-- The thread that a callback interrupts in its wait is not suspended. -/
theorem Coherent.status_of_current (hc : k.Coherent) {w : Wait} (hcur : k.current = some id)
    (ht : k.thread? id = some t) (hw : t.wait = some w) : t.status = .onlyWaiting := by
  have hwaiting : t.status.waiting = true := (hc.threads id t ht).wait.mp (by rw [hw]; rfl)
  obtain ⟨t', ht', hs⟩ := hc.current id hcur
  obtain rfl : t = t' := Option.some.inj (ht.symm.trans ht')
  split at hs
  · rcases hs with hs | hs
    · exact hs
    · rw [hs] at hwaiting
      cases hwaiting
  · rw [hs] at hwaiting
    cases hwaiting

/-- **A callback that returns to a thread that is alive leaves it as it was**, but for the end of its wait. -/
theorem Interrupted.finish {callback : ObjectId} {u : Thread}
    (h : k'.Interrupted [] ⟨⟨id, callback, k.contexts.registers context, t.wait.isSome⟩, context, t.wait,
      fun x => k.placesIn x id⟩)
    (ht : k.thread? id = some t) (hx : t.context = some context) (hc : k'.Coherent) (hleased : k'.Leased)
    (hu : k'.thread? id = some u) (halive : u.status.dead = false) (value : Int32) :
    (k'.finishCallback value).result = .ok () ∧ ∃ t', Resumes k (k'.finishCallback value).kernel id context t t' := by
  obtain ⟨hcur, hx', hwait⟩ := h.thread u hu halive
  have hlive := hleased.live id context (contextOf?_eq_some.mpr ⟨u, hu, hx'⟩)
  obtain ⟨hok, t', ht', hlife, hplaces, hlive', hregisters⟩ := finishCallback_eq h.delivering hu hx' hlive value
  have hsame : t'.wait = u.wait ∧ t'.status = u.status ∧ t'.context = u.context ∧ t'.wakeResult = u.wakeResult := by
    rw [hlife]
    exact ⟨rfl, rfl, rfl, rfl⟩
  obtain ⟨hw', hs', hcontext, hresult⟩ := hsame
  refine ⟨hok, t', ⟨ht, hx⟩, ⟨ht', hcontext.trans hx', hlive'⟩, fun r => ?_, fun w hw => ?_⟩
  · have hover : u.status.waiting = false ↔ t'.wait = none := by
      rw [hw', ← Option.not_isSome_iff_eq_none, (hc.threads id u hu).wait, Bool.not_eq_true]
    have hsaved : (k.contexts.registers context).get r = k.contexts.register context r := by
      exact Vector.getElem_ofFn r.isLt
    rw [hregisters r]
    simp only [hover, hsaved, hresult]
  · rw [hw'] at hw
    obtain hnone | ⟨heq, hmem | hplaces'⟩ := hwait
    · rw [hnone] at hw
      cases hw
    · cases hmem
    · exact ⟨heq.symm.trans hw, hs'.trans (hc.status_of_current hcur hu hw), fun x => (hplaces x id).trans (hplaces' x)⟩

/-- **Callbacks are transparent to the thread they interrupt.** A dispatch runs a callback on a thread, in any reachable
state; operations follow that do not return from it, and among them no call that cancels waits and fails. If the thread
has not exited and is not deleted by then, the callback returns to it, and it has its registers back, with the result of
its wait in `v0` if that ended meanwhile; otherwise it waits as before and stands in the same places. All along the
callback has the processor to itself, and no operation parks anybody. -/
theorem callbacks_run (config : KernelConfig) (memory : Memory) (before during : List Operation) (id : ThreadId)
    (context : ContextId) (invocation : Invocation) (value : Int32)
    (hids : (Kernel.new config memory).handedOut (before ++ .dispatch :: during) < 2 ^ 32 - 1)
    (hdispatch : ((Kernel.new config memory).run before).dispatch.1 = some ⟨id, context, .runCallback invocation⟩)
    (hduring : ((Kernel.new config memory).run (before ++ [.dispatch])).Along Undisturbed during)
    (halive : ∃ t, ((Kernel.new config memory).run (before ++ .dispatch :: during)).thread? id = some t ∧
      t.status.dead = false) :
    (((Kernel.new config memory).run (before ++ .dispatch :: during)).finishCallback value).result = .ok () ∧
      (∃ t t', Resumes ((Kernel.new config memory).run before)
        ((Kernel.new config memory).run (before ++ .dispatch :: during ++ [.finishCallback value])) id context t t') ∧
      ((Kernel.new config memory).run (before ++ [.dispatch])).Along
        (fun k o => k.Occupied ∧ ∀ x w, (k.after o).waitOf? x = some w → k.waitOf? x = some w) during ∧
      ((Kernel.new config memory).run (before ++ .dispatch :: during)).Occupied := by
  have hsplit : before ++ .dispatch :: during = (before ++ [.dispatch]) ++ during := by simp
  have hfirst := nextId_new config memory
  rw [hsplit] at hids halive ⊢
  have hleased := leased_run config memory _ hids
  rw [handedOut_append] at hids
  have hle := handedOut_le_append (Kernel.new config memory) before [.dispatch]
  have hcount := toNat_nextId_run (before ++ [.dispatch]) (nodup_started_new config memory) (by omega)
  have hcoherent := (leased_run config memory (before ++ [.dispatch]) (by omega)).1
  have hjoin := unjoined_run config memory (before ++ [.dispatch]) (by omega)
  have hnodup := nodup_started_run config memory (before ++ [.dispatch])
  -- What is on record before the dispatch holds from the dispatch to the return.
  obtain ⟨t, callback, ht, hx, hstart⟩ := interrupted_dispatch (leased_run config memory before (by omega)).1 hdispatch
  have hafter : (Kernel.new config memory).run (before ++ [.dispatch]) =
      ((Kernel.new config memory).run before).dispatch.2 := run_append ..
  rw [← hafter] at hstart
  have hrun : (Kernel.new config memory).run (before ++ [.dispatch] ++ during) =
      ((Kernel.new config memory).run (before ++ [.dispatch])).run during := run_append ..
  rw [run_append _ _ [.finishCallback value], hrun]
  rw [hrun] at halive hleased
  generalize (Kernel.new config memory).run (before ++ [.dispatch]) = k₁ at *
  have hbound : k₁.nextId.toNat + k₁.handedOut during < 2 ^ 32 := by omega
  have hkept := interrupted_run ⟨hcoherent, hjoin, hstart⟩ hnodup hbound hduring
  obtain ⟨u, hu, hdead⟩ := halive
  obtain ⟨hok, t', hresumes⟩ := hkept.2.2.finish ht hx hkept.1.1 hleased.2.1 hu hdead value
  refine ⟨hok, ⟨t, t', hresumes⟩, along_of_prefixes fun first o rest heq => ?_,
    occupied_of_delivering hkept.2.2.delivering⟩
  -- No callback has returned by the time of the operation, and there is an id for what it makes.
  rw [heq, along_append] at hduring
  rw [heq, handedOut_append, handedOut] at hbound
  obtain ⟨hc, -, hinterrupted⟩ := interrupted_run ⟨hcoherent, hjoin, hstart⟩ hnodup (by omega) hduring.1
  have hn := run_keeps (P := fun k => k.started.Nodup) (fun _ o hn _ => nodup_started_after o hn) first hnodup hnodup
  have hnow := toNat_nextId_run first hnodup (by omega)
  refine ⟨occupied_of_delivering hinterrupted.delivering, ?_⟩
  refine waitOf?_after hc hinterrupted.delivering hn (fun hne => ?_) hduring.2.1.1
  rw [if_neg hne] at hbound
  omega

/-- A thread has 9 in `v0` and 77 in `a0` and waits for two units of a semaphore, and its callback is notified. -/
def interruptedWait : List Operation :=
  [.syscall (.createThread "main" 0x08900000 32 0x1000 0), .syscall (.startThread 1 0 0), .dispatch,
    .syscall (.createCallback "notice" 0x08901000 0), .syscall (.createSemaphore "slots" 0 0 10),
    .guestRegister 1 2 9, .guestRegister 1 4 77, .syscall (.waitSemaphore 3 2 0 true), .syscall (.notifyCallback 2 7)]

/-- The callback overwrites both registers, tries to sleep, and signals one unit while time goes by. -/
def busyCallback : List Operation :=
  [.guestRegister 1 2 5, .guestRegister 1 4 1, .syscall (.sleepThread true), .advanceClock 10, .dispatch,
    .changePriority 1 40, .syscall (.signalSemaphore 3 1)]

/-- One unit is too little, and the wait goes on with the registers as they were; by a second one it ends, and the result
in `v0` is all that the thread gets to see. -/
theorem callbacks_run_interruptedWait :
    let k := (Kernel.new {} {}).run interruptedWait
    let k₁ := (Kernel.new {} {}).run (interruptedWait ++ .dispatch :: busyCallback ++ [.finishCallback 0])
    let k₂ := (Kernel.new {} {}).run
      (interruptedWait ++ .dispatch :: (busyCallback ++ [.syscall (.signalSemaphore 3 1)]) ++ [.finishCallback 0])
    k.dispatch.1 = some ⟨1, 1, .runCallback ⟨2, 0x08901000, 1, 7, 0⟩⟩ ∧
      (∃ t t', Resumes k k₁ 1 1 t t') ∧ (k₁.waitOf? 1).isSome = true ∧
      k₁.contexts.register 1 2 = 9 ∧ k₁.contexts.register 1 4 = 77 ∧
      (∃ t t', Resumes k k₂ 1 1 t t') ∧ k₂.waitOf? 1 = none ∧
      k₂.contexts.register 1 2 = 0 ∧ k₂.contexts.register 1 4 = 77 := by
  have hdispatch : ((Kernel.new {} {}).run interruptedWait).dispatch.1 =
      some ⟨1, 1, .runCallback ⟨2, 0x08901000, 1, 7, 0⟩⟩ := by decide +kernel
  have halive : ∀ operations : List Operation,
      (((Kernel.new {} {}).run operations).thread? 1).any (!·.status.dead) = true →
      ∃ t, ((Kernel.new {} {}).run operations).thread? 1 = some t ∧ t.status.dead = false := by
    intro operations h
    cases ht : ((Kernel.new {} {}).run operations).thread? 1 with
    | none =>
      rw [ht] at h
      cases h
    | some t =>
      rw [ht] at h
      exact ⟨t, rfl, by simpa using h⟩
  have hshort := callbacks_run {} {} interruptedWait busyCallback 1 1 ⟨2, 0x08901000, 1, 7, 0⟩ 0 (handedOut_lt (by decide))
    hdispatch (by decide +kernel) (halive _ (by decide +kernel))
  have hlong := callbacks_run {} {} interruptedWait (busyCallback ++ [.syscall (.signalSemaphore 3 1)]) 1 1
    ⟨2, 0x08901000, 1, 7, 0⟩ 0 (handedOut_lt (by decide)) hdispatch (by decide +kernel) (halive _ (by decide +kernel))
  exact ⟨hdispatch, hshort.2.1, by decide +kernel, by decide +kernel, by decide +kernel, hlong.2.1, by decide +kernel,
    by decide +kernel, by decide +kernel⟩

end Kernel
end GuestKernel
