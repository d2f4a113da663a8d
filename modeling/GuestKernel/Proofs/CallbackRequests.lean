/-
# Requests for callbacks

A thread that checks for callbacks while one of its own has been notified asks for them, and dispatch then runs them though
the thread is in no wait that lets them in. A request is for the callbacks that are pending: as the last of them returns it
ends. Whoever deletes the last of them before it runs does not end it.

| operation | request | what it is for |
| --- | --- | --- |
| check, with a callback pending | made | that callback |
| dispatch | stays | the callback that runs |
| return, with none pending | ends | |
| delete of the only pending callback | stays | nothing (`Exhausts`) |

The same happens when one callback is notified so often that its count starts again at 0. Apart from these two a request
that is for something stays so (`backed_after`); they leave a request for nothing (`exhausted_after`), and the next
notification of any callback of the thread meets it.

Source: specification, 4.6.
-/

import GuestKernel.Proofs.CallbackNotifications

namespace GuestKernel

/-! ### The callback that runs -/

/-- A callback starts by an interruption. -/
theorem Move.delivering_eq_none {l : Label} {s s' : Stage} (hm : Move l s s') (hl : ∀ d, l ≠ .interrupt d)
    (hd : s.kernel.delivering = none) : s'.kernel.delivering = none := by
  have hsame := hm.sameProcessor
  cases hm with
  | park => exact hd
  | retire => exact (Kernel.processor_retire ..).1.trans hd
  | preempt => exact (Kernel.delivering_preempt _).trans hd
  | run => exact (Kernel.delivering_runFirst ..).trans hd
  | interrupt => exact absurd rfl (hl _)
  | endDelivery | dropDelivery => rfl
  | _ => exact (hsame trivial).2.trans hd

theorem Operation.Permits.interrupt {o : Operation} {k : Kernel} {d : Delivery} (h : o.Permits k (.interrupt d)) :
    o = .dispatch := by
  cases h with
  | touch _ hs => exact hs trivial

/-- A count that starts again at 0 was the last one that there is. -/
theorem Callback.notifyCount_eq_max {c : Callback} {argument : UInt32} (h : ¬ 0 < (c.notify argument).notifyCount) :
    c.notifyCount = 0xFFFFFFFF := by
  have hzero : ¬ 0 < (c.notifyCount.toNat + 1) % 2 ^ 32 := fun hlt =>
    h (UInt32.lt_iff_toNat_lt.mpr (by rw [Callback.notify, UInt32.toNat_add]; exact hlt))
  have hlt := c.notifyCount.toNat_lt
  refine UInt32.toNat_inj.mp ?_
  rw [show (0xFFFFFFFF : UInt32).toNat = 2 ^ 32 - 1 from rfl]
  omega

namespace Kernel

variable {k k' : Kernel} {o : Operation} {id : ThreadId} {x : ObjectId} {t : Thread} {c : Callback} {d : Delivery}

/-- A callback goes on running until it returns. -/
theorem delivering_kept (h : k.Coherent ∧ k.IdsBelow) (hn : k.started.Nodup) (ho : o.finishes = false)
    (hd : k.delivering = some d) : (k.after o).delivering = some d := by
  obtain ⟨-, L, hkept, -⟩ := staged_after (o := o) (P := fun s => s.kernel.delivering = some d) h hn
    (fun l s s' hl _ _ hm hs => (hm.processor (hl.not_endsDelivery ho) hs).1) hd
  exact hkept

/-- Only dispatch starts a callback. -/
theorem delivering_none (h : k.Coherent ∧ k.IdsBelow) (hn : k.started.Nodup) (ho : o ≠ .dispatch)
    (hd : k.delivering = none) : (k.after o).delivering = none := by
  obtain ⟨-, L, hkept, -⟩ := staged_after (o := o) (P := fun s => s.kernel.delivering = none) h hn
    (fun l s s' hl _ _ hm hs => hm.delivering_eq_none (fun d hl' => ho (hl' ▸ hl).interrupt) hs) hd
  exact hkept

theorem delivering_finishCallback (k : Kernel) (value : Int32) : (k.finishCallback value).kernel.delivering = none := by
  unfold finishCallback
  cases hd : k.delivering with
  | none => exact hd
  | some d =>
    dsimp only
    split
    · rfl
    · split <;> rfl

/-- A callback that runs is one of the thread on which it runs. -/
def Addressed (k : Kernel) : Prop :=
  ∀ d, k.delivering = some d → d.callback.toNat < k.nextId.toNat ∧
    ∀ c, k.objects.callback? d.callback = some c → c.owner = d.thread

/-- An operation keeps callbacks on the threads that they are for. -/
theorem Addressed.after (haddressed : k.Addressed) (h : k.Coherent ∧ k.IdsBelow) (hn : k.started.Nodup)
    (ha : k.Attached) (hbound : k.SparesLastId o) : (k.after o).Addressed := by
  have hnext := nextId_le_of_room hn hbound
  -- No other callback gets the id, and owners do not change.
  have hsame : ∀ y thread, y.toNat < k.nextId.toNat → (∀ c, k.objects.callback? y = some c → c.owner = thread) →
      y.toNat < (k.after o).nextId.toNat ∧
        ∀ c', (k.after o).objects.callback? y = some c' → c'.owner = thread := by
    intro y thread hlt howner
    refine ⟨Nat.lt_of_lt_of_le hlt hnext, fun c' hc' => ?_⟩
    obtain ⟨-, rfl, -⟩ | ⟨c, hc, hcase⟩ := callback_cases h hn ha hc'
    · exact absurd hlt (Nat.lt_irrefl _)
    · have hthread := howner c hc
      obtain ⟨argument, -, rfl, -⟩ | ⟨-, ⟨rfl, -⟩ | ⟨rfl, -⟩⟩ := hcase <;> exact hthread
  intro d hd'
  cases hd : k.delivering with
  | some d₀ =>
    cases ho : o.finishes with
    | true =>
      cases o with
      | finishCallback value => cases (delivering_finishCallback k value).symm.trans hd'
      | _ => cases ho
    | false =>
      obtain rfl := Option.some.inj ((delivering_kept h hn ho hd).symm.trans hd')
      obtain ⟨hlt, howner⟩ := haddressed d₀ hd
      exact hsame d₀.callback d₀.thread hlt howner
  | none =>
    by_cases ho : o = .dispatch
    · subst ho
      replace hd' : k.dispatch.2.delivering = some d := hd'
      obtain hnone | ⟨t, c, hdelivers⟩ := h.1.delivers_cases ha
      · cases (hnone.delivering.trans hd).symm.trans hd'
      · obtain ⟨d₁, hd₁, hthread, hcallback⟩ := hdelivers.delivering
        obtain rfl := Option.some.inj (hd₁.symm.trans hd')
        have hc := hdelivers.owes.callback
        rw [hcallback, hthread]
        refine hsame c.id t.id (UInt32.lt_iff_toNat_lt.mp (h.2.callback_lt hc)) fun c₁ hc₁ => ?_
        rw [← Option.some.inj (hc.symm.trans hc₁)]
        exact hdelivers.owes.owner
    · cases (delivering_none h hn ho hd).symm.trans hd'

/-- **No callback ever runs on another's thread.** -/
theorem addressed_run (config : KernelConfig) (memory : Memory) (operations : List Operation)
    (hids : (Kernel.new config memory).handedOut operations < 2 ^ 32 - 1) :
    ((Kernel.new config memory).run operations).Addressed := by
  have hnew : (Kernel.new config memory).Addressed := by
    obtain ⟨partitions, journal, heq, -⟩ := new_cases config memory
    intro d hd
    rw [heq] at hd
    cases hd
  refine (reachable_keeps (P := fun k => k.Attached ∧ k.Addressed) hids
    ⟨attached_run config memory [] (Nat.zero_lt_succ _), hnew⟩ ?_).2.2
  rintro k o hc hn hbound ⟨hattached, haddressed⟩
  exact ⟨hattached.after hc hn hbound, haddressed.after hc hn hattached hbound⟩

/-! ### How callbacks end -/

theorem callback?_checkCallbacks (k : Kernel) (x : ObjectId) :
    k.checkCallbacks.kernel.objects.callback? x = k.objects.callback? x := by
  obtain ⟨heq, -⟩ | ⟨t, -, ht, -, heq⟩ := checkCallbacks_cases k <;> rw [heq]
  exact callback?_putThread ht { t with checksCallbacks := true } rfl x

/-- Deleting a callback leaves the others alone. -/
theorem callback?_deleteCallback {y : ObjectId} (hne : x ≠ y) :
    (k.deleteCallback x).kernel.objects.callback? y = k.objects.callback? y := by
  obtain ⟨-, heq⟩ | ⟨c, -, -, hcallback, -⟩ := deleteCallback_cases k x
  · rw [heq]
  · exact (hcallback y).trans (if_neg hne)

/-- Of threads it changes nothing but lists. -/
theorem of_thread?_deleteCallback {t' : Thread} (ht' : (k.deleteCallback x).kernel.thread? id = some t') :
    ∃ t, k.thread? id = some t ∧ t'.status = t.status ∧ t'.checksCallbacks = t.checksCallbacks := by
  obtain ⟨-, heq⟩ | ⟨c, -, -, -, hthread⟩ := deleteCallback_cases k x
  · rw [heq] at ht'
    exact ⟨t', ht', rfl, rfl⟩
  · rw [hthread] at ht'
    obtain ⟨t, ht, rfl⟩ := Option.map_eq_some_iff.mp ht'
    refine ⟨t, ht, ?_⟩
    split <;> exact ⟨rfl, rfl⟩

/-- What a callback returns changes no other callback, and no thread's request. -/
theorem retireCallback_cases (k : Kernel) (x : ObjectId) (value : Int32) :
    (∀ y, x ≠ y → (k.retireCallback x value).objects.callback? y = k.objects.callback? y) ∧
      ∀ y t', (k.retireCallback x value).thread? y = some t' →
        ∃ t, k.thread? y = some t ∧ t'.status = t.status ∧ t'.checksCallbacks = t.checksCallbacks := by
  have hcallback : ∀ y, x ≠ y → ((k.note (.callbackRetired x value)).deleteCallback x).kernel.objects.callback? y =
      k.objects.callback? y := fun y hne => callback?_deleteCallback (k := k.note (.callbackRetired x value)) hne
  have hthread : ∀ y t', ((k.note (.callbackRetired x value)).deleteCallback x).kernel.thread? y = some t' →
      ∃ t, k.thread? y = some t ∧ t'.status = t.status ∧ t'.checksCallbacks = t.checksCallbacks :=
    fun y t' ht' => of_thread?_deleteCallback (k := k.note (.callbackRetired x value)) ht'
  unfold retireCallback
  split
  · exact ⟨fun y _ => rfl, fun y t' ht' => ⟨t', ht', rfl, rfl⟩⟩
  · generalize (k.note (.callbackRetired x value)).deleteCallback x = r at hcallback hthread ⊢
    obtain ⟨result, k₁⟩ := r
    cases result with
    | ok => exact ⟨hcallback, hthread⟩
    | error e => exact ⟨hcallback, hthread⟩

/-- **What the return from a callback does to callbacks and requests**: only the callback that ran may go, and the request
of its thread ends unless a callback is pending. -/
theorem finishCallback_cases (k : Kernel) (value : Int32) :
    (k.delivering = none ∧ (k.finishCallback value).kernel = k) ∨ ∃ d, k.delivering = some d ∧
      (∀ x, d.callback ≠ x → (k.finishCallback value).kernel.objects.callback? x = k.objects.callback? x) ∧
      ∀ x t', (k.finishCallback value).kernel.thread? x = some t' → ∃ t, k.thread? x = some t ∧
        t'.status = t.status ∧ (t'.checksCallbacks = true → t.checksCallbacks = true ∧
          (x = d.thread → ((k.finishCallback value).kernel.pendingCallback? t').isSome = true)) := by
  unfold finishCallback
  cases hd : k.delivering with
  | none => exact Or.inl ⟨rfl, rfl⟩
  | some d =>
    refine Or.inr ⟨d, rfl, ?_⟩
    obtain ⟨hcallback, hthread⟩ := retireCallback_cases k d.callback value
    dsimp only
    generalize k.retireCallback d.callback value = k₁ at hcallback hthread ⊢
    split
    · next hnone =>
      refine ⟨hcallback, fun x t' ht' => ?_⟩
      obtain ⟨t, ht, hstatus, hcheck⟩ := hthread x t' ht'
      refine ⟨t, ht, hstatus, fun hyes => ⟨hcheck.symm.trans hyes, ?_⟩⟩
      rintro rfl
      cases hnone.symm.trans ht'
    · next t₁ ht₁ =>
      have hobjects : ((k₁.restoreContext d t₁).endDelivery d).objects = k₁.objects :=
        (Reloads.restoreContext k₁ d t₁).objects
      have hsame : ∀ x, ((k₁.restoreContext d t₁).endDelivery d).thread? x = k₁.thread? x := by
        intro x
        rw [thread?, hobjects]
        rfl
      generalize (k₁.restoreContext d t₁).endDelivery d = k₂ at hobjects hsame ⊢
      have hid : t₁.id = d.thread := id_of_thread? ht₁
      split
      · next hpending =>
        refine ⟨fun x hx => ?_, fun x t' ht' => ?_⟩
        · rw [show k₂.done () = ⟨.ok (), k₂⟩ from rfl, hobjects]
          exact hcallback x hx
        · have ht₂ : k₁.thread? x = some t' := (hsame x).symm.trans ht'
          obtain ⟨t, ht, hstatus, hcheck⟩ := hthread x t' ht₂
          refine ⟨t, ht, hstatus, fun hyes => ⟨hcheck.symm.trans hyes, ?_⟩⟩
          rintro rfl
          obtain rfl := Option.some.inj (ht₁.symm.trans ht₂)
          exact hpending
      · have hput : k₂.thread? t₁.id = some t₁ := by rw [hsame, hid, ht₁]
        refine ⟨fun x hx => ?_, fun x t' ht' => ?_⟩
        · refine (callback?_putThread hput { t₁ with checksCallbacks := false } rfl x).trans ?_
          rw [hobjects]
          exact hcallback x hx
        · replace ht' : (k₂.putThread { t₁ with checksCallbacks := false }).thread? x = some t' := ht'
          rw [thread?_putThread] at ht'
          by_cases hx : t₁.id = x
          · rw [if_pos hx] at ht'
            obtain rfl := Option.some.inj ht'
            obtain ⟨t, ht, hstatus, -⟩ := hthread x t₁ (hx ▸ hid ▸ ht₁)
            exact ⟨t, ht, hstatus, fun hno => by cases hno⟩
          · rw [if_neg hx, hsame] at ht'
            obtain ⟨t, ht, hstatus, hcheck⟩ := hthread x t' ht'
            refine ⟨t, ht, hstatus, fun hyes => ⟨hcheck.symm.trans hyes, fun heq => ?_⟩⟩
            exact absurd (hid.trans heq.symm) hx

/-- A callback that goes with a thread goes with its owner. -/
theorem owner_gone (h : k.Coherent ∧ k.IdsBelow) (hn : k.started.Nodup) (ha : k.Attached)
    (ht : k.thread? t.id = some t) (hends : EndsThread k t k') (hc : k.objects.callback? x = some c)
    (hnone : k'.objects.callback? x = none) : k'.thread? c.owner = none := by
  have hexit : ∀ exitCode, (k.exit t exitCode).objects.callback? x = some c := by
    intro exitCode
    rw [← hc, ← after_exitThread ht]
    exact callback?_after h hn rfl (fun argument heq => by cases heq) (fun heq => by cases heq)
  cases hends with
  | refused => cases hnone.symm.trans hc
  | exit exitCode => cases hnone.symm.trans (hexit exitCode)
  | delete exitCode =>
    obtain ⟨t', ht', hd⟩ := thread?_exit ht exitCode
    have hid : t'.id = t.id := id_of_thread? ht'
    rw [← hid] at ht' hnone ⊢
    rw [deleteThread_of_dead ht' hd] at hnone ⊢
    obtain hobjects | ⟨-, hthread, hcallback⟩ := reclaim_cases ht'
    · rw [hobjects, callback?_putThread ht' t'.strip rfl x] at hnone
      cases hnone.symm.trans (hexit exitCode)
    · rw [hcallback] at hnone
      split at hnone
      · next hmem =>
        obtain ⟨c₁, hc₁, howner⟩ := (ha.ends h hn ht (.exit exitCode)).owned t'.id t' ht' x hmem
        obtain rfl := Option.some.inj ((hexit exitCode).symm.trans hc₁)
        exact (hthread c.owner).trans (if_pos howner.symm)
      · cases hnone.symm.trans (hexit exitCode)

/-- **How a callback ends**: it is deleted, it returns, or its owner goes. -/
theorem callback_gone (h : k.Coherent ∧ k.IdsBelow) (hn : k.started.Nodup) (ha : k.Attached)
    (hc : k.objects.callback? x = some c) (hnone : (k.after o).objects.callback? x = none) :
    o = .syscall (.deleteCallback x) ∨ (∃ d, o.finishes = true ∧ k.delivering = some d ∧ d.callback = x) ∨
      (k.after o).thread? c.owner = none := by
  have hstays : (k.after o).objects.callback? x ≠ k.objects.callback? x := by
    rw [hc, hnone]
    exact fun heq => by cases heq
  cases ho : o.attaches with
  | false =>
    have howner := owner_after h hn ho x
    rw [hc, hnone] at howner
    cases howner
  | true =>
    cases attaches_cases k ho with
    | create name entry commonArgument =>
      replace hnone : (k.createCallback name entry commonArgument).kernel.objects.callback? x = none := hnone
      obtain ⟨e, he⟩ | ⟨t, -, ht, heq⟩ := createCallback_cases k name entry commonArgument
      · rw [he] at hnone
        cases hnone.symm.trans hc
      · rw [heq] at hnone
        replace hnone := (callback?_attach ht _ x).symm.trans hnone
        split at hnone
        · cases hnone
        · cases hnone.symm.trans hc
    | delete y =>
      by_cases hyx : y = x
      · exact Or.inl (by rw [hyx])
      · exact absurd (callback?_deleteCallback hyx) hstays
    | check => exact absurd (callback?_checkCallbacks k x) hstays
    | finish value =>
      replace hstays : (k.finishCallback value).kernel.objects.callback? x ≠ k.objects.callback? x := hstays
      obtain ⟨-, heq⟩ | ⟨d, hd, hcallback, -⟩ := finishCallback_cases k value
      · rw [heq] at hstays
        exact absurd rfl hstays
      · refine Or.inr (Or.inl ⟨d, rfl, hd, ?_⟩)
        by_contra hne
        exact hstays (hcallback x hne)
    | ends ht hends => exact Or.inr (Or.inr (owner_gone h hn ha ht hends hc hnone))
    | idle hidle =>
      rw [hidle] at hstays
      exact absurd rfl hstays

/-! ### Requests -/

/-- Whether the thread of an id is alive and has asked for its callbacks. -/
def asks (k : Kernel) (id : ThreadId) : Bool := (k.thread? id).any fun t => !t.status.dead && t.checksCallbacks

theorem asks_iff : k.asks id = true ↔
    ∃ t, k.thread? id = some t ∧ t.status.dead = false ∧ t.checksCallbacks = true := by
  unfold asks
  cases k.thread? id <;> simp

/-- The thread owns the callback, which has been notified and is still to run. -/
structure Pends (k : Kernel) (id : ThreadId) (c : Callback) : Prop where
  callback : k.objects.callback? c.id = some c
  owner : c.owner = id
  notified : 0 < c.notifyCount

/-- There is something that a request of the thread is for: a callback is pending, or one runs. -/
def Backed (k : Kernel) (id : ThreadId) : Prop :=
  (∃ c, k.Pends id c) ∨ ∃ d, k.delivering = some d ∧ d.thread = id

/-- A request of the thread is for one callback that has not run yet, and the operation deletes that callback, or notifies
it once more than can be counted. -/
def Exhausts (id : ThreadId) (k : Kernel) (o : Operation) : Prop :=
  k.asks id = true ∧ (∀ d, k.delivering = some d → d.thread ≠ id) ∧
    ∃ c, k.Pends id c ∧ (∀ c', k.Pends id c' → c' = c) ∧
      (o = .syscall (.deleteCallback c.id) ∨
        c.notifyCount = 0xFFFFFFFF ∧ ∃ argument, o = .syscall (.notifyCallback c.id argument))

/-- The operation is a check for callbacks by the thread, and one is pending. -/
def Checks (id : ThreadId) (k : Kernel) (o : Operation) : Prop :=
  o = .syscall .checkCallback ∧ k.current = some id ∧ k.checkCallbacks.result = .ok true

theorem Pends.eq_of_id {c' : Callback} (h : k.Pends id c) (h' : k.Pends id c') (heq : c.id = c'.id) : c = c' :=
  Option.some.inj (h.callback.symm.trans (heq ▸ h'.callback))

/-- What is pending is on the list of its owner. -/
theorem Pends.listed (h : k.Pends id c) (ha : k.Attached) (ht : k.thread? id = some t) (halive : t.status.dead = false) :
    c.id ∈ t.callbacks :=
  ha.listed c.id c t h.callback (h.owner ▸ ht) halive

/-- The search for a pending callback finds one of the thread. -/
theorem Attached.pends (ha : k.Attached) (ht : k.thread? id = some t) (h : (k.pendingCallback? t).isSome = true) :
    ∃ c, k.Pends id c := by
  obtain ⟨c, hc⟩ := Option.isSome_iff_exists.mp h
  obtain ⟨before, rest, hlist, hcallback, hnotified, -⟩ := pendingCallback?_eq_some hc
  obtain ⟨c₁, hc₁, howner⟩ := ha.owned id t ht c.id (hlist ▸ List.mem_append_right _ (List.mem_cons_self ..))
  obtain rfl := Option.some.inj (hcallback.symm.trans hc₁)
  exact ⟨c, hcallback, howner, hnotified⟩

/-- An operation that is not about callbacks makes no request. -/
theorem asks_of_attaches (h : k.Coherent ∧ k.IdsBelow) (hn : k.started.Nodup) (ho : o.attaches = false)
    (hasks : (k.after o).asks id = true) : k.asks id = true := by
  obtain ⟨t', ht', halive, hcheck⟩ := asks_iff.mp hasks
  cases ht : k.thread? id with
  | none =>
    obtain ⟨-, -, -, hno⟩ := new_after h hn ht ht'
    cases hno.symm.trans hcheck
  | some t =>
    have hsame := (callbacks_after h hn ho ht ht').1
    refine asks_iff.mpr ⟨t, ht, Bool.eq_false_iff.mpr fun hdead => ?_, hsame.symm.trans hcheck⟩
    have hdead' := kept_after (Q := fun u => u.status.dead = true) h hn
      (fun l u u' _ _ hstep hu => (hstep.stays_dead hu).1) ht hdead ht'
    cases halive.symm.trans hdead'

/-- The end of a thread makes no requests. -/
theorem asks_ends (h : k.Coherent ∧ k.IdsBelow) (hn : k.started.Nodup) (ht : k.thread? t.id = some t)
    (hends : EndsThread k t k') (hasks : k'.asks id = true) : k.asks id = true := by
  have hexit : ∀ exitCode, (k.exit t exitCode).asks id = true → k.asks id = true := by
    intro exitCode hyes
    rw [← after_exitThread ht] at hyes
    exact asks_of_attaches h hn rfl hyes
  cases hends with
  | refused => exact hasks
  | exit exitCode => exact hexit exitCode hasks
  | delete exitCode =>
    refine hexit exitCode ?_
    obtain ⟨t', ht', hd⟩ := thread?_exit ht exitCode
    obtain hid : t'.id = t.id := id_of_thread? ht'
    rw [← hid] at ht' hasks
    rw [deleteThread_of_dead ht' hd] at hasks
    obtain ⟨u, hu, halive, hcheck⟩ := asks_iff.mp hasks
    refine asks_iff.mpr ⟨u, ?_, halive, hcheck⟩
    obtain hobjects | ⟨-, hthread, -⟩ := reclaim_cases ht'
    · rw [thread?, hobjects] at hu
      replace hu : ((k.exit t exitCode).putThread t'.strip).thread? id = some u := hu
      rw [thread?_putThread] at hu
      split at hu
      · rw [← Option.some.inj hu] at halive
        cases halive.symm.trans hd
      · exact hu
    · rw [hthread] at hu
      split at hu
      · cases hu
      · exact hu

/-- Making a callback makes no requests. -/
theorem asks_createCallback {name : String} {entry commonArgument : UInt32}
    (hasks : (k.createCallback name entry commonArgument).kernel.asks id = true) : k.asks id = true := by
  obtain ⟨t', ht', halive, hcheck⟩ := asks_iff.mp hasks
  refine asks_iff.mpr ?_
  obtain ⟨e, he⟩ | ⟨t, -, ht, heq⟩ := createCallback_cases k name entry commonArgument
  · rw [he] at ht'
    exact ⟨t', ht', halive, hcheck⟩
  · rw [heq] at ht'
    replace ht' := (thread?_attach k t _ id).symm.trans ht'
    split at ht'
    · cases ht'
    · split at ht'
      · next hid =>
        obtain rfl := Option.some.inj ht'
        exact ⟨t, hid ▸ ht, halive, hcheck⟩
      · exact ⟨t', ht', halive, hcheck⟩

/-- **A request is made by a check for callbacks**, when one is pending. -/
theorem asks_after (h : k.Coherent ∧ k.IdsBelow) (hn : k.started.Nodup) (hasks : (k.after o).asks id = true) :
    k.asks id = true ∨ k.Checks id o := by
  cases ho : o.attaches with
  | false => exact Or.inl (asks_of_attaches h hn ho hasks)
  | true =>
    obtain ⟨t', ht', halive, hcheck⟩ := asks_iff.mp hasks
    cases attaches_cases k ho with
    | create name entry commonArgument => exact Or.inl (asks_createCallback hasks)
    | delete x =>
      obtain ⟨t, ht, hstatus, hsame⟩ := of_thread?_deleteCallback ht'
      exact Or.inl (asks_iff.mpr ⟨t, ht, hstatus ▸ halive, hsame ▸ hcheck⟩)
    | check =>
      replace ht' : k.checkCallbacks.kernel.thread? id = some t' := ht'
      obtain ⟨heq, -⟩ | ⟨t, hcurrent, ht, -, heq⟩ := checkCallbacks_cases k
      · rw [heq] at ht'
        exact Or.inl (asks_iff.mpr ⟨t', ht', halive, hcheck⟩)
      · by_cases hid : t.id = id
        · exact Or.inr ⟨rfl, hid ▸ hcurrent, by rw [heq]; rfl⟩
        · rw [heq] at ht'
          replace ht' := (thread?_putThread ..).symm.trans ht'
          rw [if_neg hid] at ht'
          exact Or.inl (asks_iff.mpr ⟨t', ht', halive, hcheck⟩)
    | finish value =>
      obtain ⟨-, heq⟩ | ⟨d, -, -, hthread⟩ := finishCallback_cases k value
      · replace hasks : (k.finishCallback value).kernel.asks id = true := hasks
        rw [heq] at hasks
        exact Or.inl hasks
      · obtain ⟨t, ht, hstatus, hasked⟩ := hthread id t' ht'
        exact Or.inl (asks_iff.mpr ⟨t, ht, hstatus ▸ halive, (hasked hcheck).1⟩)
    | ends ht hends => exact Or.inl (asks_ends h hn ht hends hasks)
    | idle hidle =>
      rw [hidle] at hasks
      exact Or.inl hasks

/-- What is asked for is there. -/
theorem Checks.backed (hchecks : k.Checks id o) (ha : k.Attached) : (k.after o).Backed id := by
  obtain ⟨rfl, hcurrent, hok⟩ := hchecks
  obtain ⟨-, hno⟩ | ⟨t, hcurrent', ht, hpending, -⟩ := checkCallbacks_cases k
  · exact absurd hok hno
  · obtain rfl := Option.some.inj (hcurrent'.symm.trans hcurrent)
    obtain ⟨c, hc⟩ := ha.pends ht hpending
    exact Or.inl ⟨c, (callback?_checkCallbacks k c.id).trans hc.callback, hc.owner, hc.notified⟩

/-- As long as a callback runs the request is for that one, and after it for what is pending. -/
theorem backed_of_delivering (h : k.Coherent ∧ k.IdsBelow) (hn : k.started.Nodup) (ha' : (k.after o).Attached)
    (hasks : (k.after o).asks id = true) (hd : k.delivering = some d) (hid : d.thread = id) : (k.after o).Backed id := by
  cases ho : o.finishes with
  | false => exact Or.inr ⟨d, delivering_kept h hn ho hd, hid⟩
  | true =>
    cases o with
    | finishCallback value =>
      obtain ⟨t', ht', -, hcheck⟩ := asks_iff.mp hasks
      obtain ⟨hnone, -⟩ | ⟨d₁, hd₁, -, hthread⟩ := finishCallback_cases k value
      · cases hnone.symm.trans hd
      · obtain rfl := Option.some.inj (hd₁.symm.trans hd)
        obtain ⟨_, _, _, hasked⟩ := hthread id t' ht'
        exact Or.inl (ha'.pends ht' ((hasked hcheck).2 hid.symm))
    | _ => cases ho

/-- Dispatch leaves a pending callback alone, or runs it on its owner. -/
theorem Pends.dispatch (hc : k.Pends id c) (hk : k.Coherent) (ha : k.Attached) : k.dispatch.2.Backed id := by
  obtain hnone | ⟨t, c₀, hdelivers⟩ := hk.delivers_cases ha
  · exact Or.inl ⟨c, (hnone.callback c.id).trans hc.callback, hc.owner, hc.notified⟩
  · by_cases hid : c₀.id = c.id
    · have hsame := hdelivers.owes.callback
      rw [hid] at hsame
      obtain rfl := Option.some.inj (hsame.symm.trans hc.callback)
      obtain ⟨d, hd, hthread, -⟩ := hdelivers.delivering
      exact Or.inr ⟨d, hd, hthread.trans (hdelivers.owes.owner.symm.trans hc.owner)⟩
    · exact Or.inl ⟨c, ((hdelivers.callback c.id).trans (if_neg hid)).trans hc.callback, hc.owner, hc.notified⟩

/-- A call that leaves nothing of a pending callback exhausts the request, or another one is pending. -/
theorem Pends.exhausts_or (hc : k.Pends id c) (hbefore : k.asks id = true)
    (hfree : ∀ d, k.delivering = some d → d.thread ≠ id)
    (ho : o = .syscall (.deleteCallback c.id) ∨
      c.notifyCount = 0xFFFFFFFF ∧ ∃ argument, o = .syscall (.notifyCallback c.id argument))
    (hsame : ∀ x, c.id ≠ x → (k.after o).objects.callback? x = k.objects.callback? x) :
    (k.after o).Backed id ∨ k.Exhausts id o := by
  by_cases honly : ∀ c', k.Pends id c' → c' = c
  · exact Or.inr ⟨hbefore, hfree, c, hc, honly, ho⟩
  · obtain ⟨c', hc', hne⟩ : ∃ c', k.Pends id c' ∧ c' ≠ c := by
      by_contra hno
      exact honly fun c' hc' => Classical.not_not.mp fun hne => hno ⟨c', hc', hne⟩
    have hid : c.id ≠ c'.id := fun heq => hne (hc.eq_of_id hc' heq).symm
    exact Or.inl (Or.inl ⟨c', (hsame c'.id hid).trans hc'.callback, hc'.owner, hc'.notified⟩)

/-- **A request stays for something**, unless the operation exhausts it. -/
theorem backed_after (h : k.Coherent ∧ k.IdsBelow) (hn : k.started.Nodup) (ha : k.Attached) (haddressed : k.Addressed)
    (ha' : (k.after o).Attached) (hbefore : k.asks id = true) (hasks : (k.after o).asks id = true)
    (hbacked : k.Backed id) : (k.after o).Backed id ∨ k.Exhausts id o := by
  by_cases hd : ∃ d, k.delivering = some d ∧ d.thread = id
  · obtain ⟨d, hd, hid⟩ := hd
    exact Or.inl (backed_of_delivering h hn ha' hasks hd hid)
  obtain ⟨c, hc⟩ := hbacked.resolve_right hd
  have hfree : ∀ d, k.delivering = some d → d.thread ≠ id := fun d hd₁ hid => hd ⟨d, hd₁, hid⟩
  by_cases hdispatch : o = .dispatch
  · subst hdispatch
    exact Or.inl (hc.dispatch h.1 ha)
  by_cases hnotifies : ∃ argument, o.notifies? = some (c.id, argument)
  · obtain ⟨argument, hnotifies⟩ := hnotifies
    obtain rfl := Operation.eq_of_notifies? hnotifies
    obtain ⟨hnone, -⟩ | ⟨c₁, hc₁, -, -, hcallback⟩ := notifyCallback_cases k c.id argument
    · cases hnone.symm.trans hc.callback
    obtain rfl := Option.some.inj (hc.callback.symm.trans hc₁)
    by_cases hmore : 0 < (c.notify argument).notifyCount
    · exact Or.inl (Or.inl ⟨c.notify argument, (hcallback c.id).trans (if_pos rfl), hc.owner, hmore⟩)
    · exact hc.exhausts_or hbefore hfree (Or.inr ⟨Callback.notifyCount_eq_max hmore, argument, rfl⟩)
        fun x hne => (hcallback x).trans (if_neg hne)
  have hnot : ∀ argument, o.notifies? ≠ some (c.id, argument) := fun argument heq => hnotifies ⟨argument, heq⟩
  cases hc' : (k.after o).objects.callback? c.id with
  | none =>
    obtain rfl | ⟨d, -, hd₁, hcallback⟩ | hgone := callback_gone h hn ha hc.callback hc'
    · exact hc.exhausts_or hbefore hfree (Or.inl rfl) fun x hne => callback?_deleteCallback hne
    · -- It is the callback that has run, and its owner the thread on which it ran.
      have howner := (haddressed d hd₁).2 c (hcallback ▸ hc.callback)
      exact absurd (howner.symm.trans hc.owner) (hfree d hd₁)
    · obtain ⟨t', ht', -⟩ := asks_iff.mp hasks
      rw [hc.owner] at hgone
      cases hgone.symm.trans ht'
  | some c' =>
    obtain rfl := callback_kept h hn hc.callback hnot hdispatch hc'
    exact Or.inl (Or.inl ⟨c', hc', hc.owner, hc.notified⟩)

/-- **A request that has been exhausted stays, for nothing.** -/
theorem exhausted_after (h : k.Coherent ∧ k.IdsBelow) (hn : k.started.Nodup) (hexhausts : k.Exhausts id o) :
    (k.after o).asks id = true ∧ ¬ (k.after o).Backed id := by
  obtain ⟨hasks, hfree, c, hc, honly, ho⟩ := hexhausts
  obtain ⟨t, ht, halive, hcheck⟩ := asks_iff.mp hasks
  have hcall : o ≠ .dispatch ∧ o.finishes = false := by
    obtain rfl | ⟨-, argument, rfl⟩ := ho <;> exact ⟨fun heq => (by cases heq), rfl⟩
  have hidle : ∀ d, (k.after o).delivering = some d → d.thread ≠ id := by
    intro d hd'
    cases hd : k.delivering with
    | none => cases (delivering_none h hn hcall.1 hd).symm.trans hd'
    | some d₀ =>
      obtain rfl := Option.some.inj ((delivering_kept h hn hcall.2 hd).symm.trans hd')
      exact hfree d₀ hd
  -- The callback is gone, or none of its notifications is left.
  have hspent : (k.after o).asks id = true ∧ ∀ c', (k.after o).Pends id c' → c.id ≠ c'.id ∧ k.Pends id c' := by
    obtain rfl | ⟨hmax, argument, rfl⟩ := ho
    · obtain ⟨hnone, -⟩ | ⟨c₁, -, -, hcallback, hthread⟩ := deleteCallback_cases k c.id
      · cases hnone.symm.trans hc.callback
      · refine ⟨asks_iff.mpr ⟨_, (hthread id).trans (congrArg _ ht), ?_⟩, fun c' hc' => ?_⟩
        · split <;> exact ⟨halive, hcheck⟩
        · have hsome := (hcallback c'.id).symm.trans hc'.callback
          split at hsome
          · cases hsome
          · next hne => exact ⟨hne, hsome, hc'.owner, hc'.notified⟩
    · obtain ⟨hnone, -⟩ | ⟨c₁, hc₁, -, hthread, hcallback⟩ := notifyCallback_cases k c.id argument
      · cases hnone.symm.trans hc.callback
      · obtain rfl := Option.some.inj (hc.callback.symm.trans hc₁)
        refine ⟨asks_iff.mpr ⟨t, (hthread id).trans ht, halive, hcheck⟩, fun c' hc' => ?_⟩
        have hsome := (hcallback c'.id).symm.trans hc'.callback
        split at hsome
        · have hcount : 0 < c.notifyCount + 1 := by
            rw [show c.notifyCount + 1 = (c.notify argument).notifyCount from rfl, Option.some.inj hsome]
            exact hc'.notified
          rw [hmax] at hcount
          cases hcount
        · next hne => exact ⟨hne, hsome, hc'.owner, hc'.notified⟩
  refine ⟨hspent.1, ?_⟩
  rintro (⟨c', hc'⟩ | ⟨d, hd, hid⟩)
  · obtain ⟨hne, hbefore⟩ := hspent.2 c' hc'
    exact hne (congrArg Callback.id (honly c' hbefore)).symm
  · exact hidle d hd hid

/-! ### Runs -/

variable {operations rest : List Operation}

/-- The request of the thread is exhausted during a run. -/
def Spent (k : Kernel) (id : ThreadId) (operations : List Operation) : Prop :=
  ∃ first o rest, operations = first ++ o :: rest ∧ (k.run first).Exhausts id o

theorem Spent.concat (h : k.Spent id operations) (o : Operation) : k.Spent id (operations ++ [o]) := by
  obtain ⟨first, o₁, rest, rfl, hexhausts⟩ := h
  exact ⟨first, o₁, rest ++ [o], by rw [List.append_assoc, List.cons_append], hexhausts⟩

/-- The thread checks for callbacks, and not again during the rest of the run. All the time its request stands, and it is
for something until it is exhausted. -/
structure AsksSince (k : Kernel) (id : ThreadId) (rest : List Operation) : Prop where
  checks : k.Checks id (.syscall .checkCallback)
  last : (k.after (.syscall .checkCallback)).Along (fun k o => ¬ k.Checks id o) rest
  asks : ∀ mid, mid <+: rest → ((k.after (.syscall .checkCallback)).run mid).asks id = true
  backed : ∀ mid, mid <+: rest → ((k.after (.syscall .checkCallback)).run mid).Backed id ∨
    (k.after (.syscall .checkCallback)).Spent id mid

/-- A request that outlives an operation goes on, if what it is for does. -/
theorem AsksSince.concat (h : k.AsksSince id rest) (ho : ¬ ((k.after (.syscall .checkCallback)).run rest).Checks id o)
    (hasks : (((k.after (.syscall .checkCallback)).run rest).after o).asks id = true)
    (hbacked : ((k.after (.syscall .checkCallback)).run rest).Backed id →
      (((k.after (.syscall .checkCallback)).run rest).after o).Backed id ∨
        ((k.after (.syscall .checkCallback)).run rest).Exhausts id o) : k.AsksSince id (rest ++ [o]) where
  checks := h.checks
  last := along_append.mpr ⟨h.last, ho, trivial⟩
  asks mid hmid := by
    rcases List.prefix_concat_iff.mp hmid with rfl | hmid
    · rw [run_concat]
      exact hasks
    · exact h.asks mid hmid
  backed mid hmid := by
    rcases List.prefix_concat_iff.mp hmid with rfl | hmid
    · rcases h.backed rest (List.prefix_refl rest) with hyes | hspent
      · rw [run_concat]
        exact (hbacked hyes).imp_right fun hexhausts => ⟨rest, o, [], rfl, hexhausts⟩
      · exact Or.inr (hspent.concat o)
    · exact h.backed mid hmid

/-- **Behind every request is a check for callbacks.** -/
theorem asksSince_run (config : KernelConfig) (memory : Memory) (operations : List Operation)
    (hids : (Kernel.new config memory).handedOut operations < 2 ^ 32 - 1)
    (hasks : ((Kernel.new config memory).run operations).asks id = true) :
    ∃ first rest, operations = first ++ .syscall .checkCallback :: rest ∧
      ((Kernel.new config memory).run first).AsksSince id rest := by
  induction operations using List.reverseRecOn with
  | nil =>
    obtain ⟨t, ht, -⟩ := asks_iff.mp hasks
    rw [run_nil, thread?, ObjectTable.thread?, get?_new] at ht
    cases ht
  | append_singleton operations o ih =>
    have hids' := Nat.lt_of_le_of_lt (handedOut_le_append _ operations [o]) hids
    obtain ⟨h, -⟩ := leased_run config memory operations hids'
    have hn := nodup_started_run config memory operations
    have ha := attached_run config memory operations hids'
    have ha' := attached_run config memory (operations ++ [o]) hids
    have haddressed := addressed_run config memory operations hids'
    rw [run_concat] at hasks ha'
    by_cases hchecks : ((Kernel.new config memory).run operations).Checks id o
    · have hbacked := hchecks.backed ha
      obtain rfl := hchecks.1
      refine ⟨operations, [], rfl, hchecks, trivial, fun mid hmid => ?_, fun mid hmid => ?_⟩
      · rw [List.prefix_nil.mp hmid]
        exact hasks
      · rw [List.prefix_nil.mp hmid]
        exact Or.inl hbacked
    · have hbefore := (asks_after h hn hasks).resolve_right hchecks
      obtain ⟨first, rest, rfl, hsince⟩ := ih hids' hbefore
      have hrun : (Kernel.new config memory).run (first ++ .syscall .checkCallback :: rest) =
          (((Kernel.new config memory).run first).after (.syscall .checkCallback)).run rest := by
        rw [run_append, run_cons]
      rw [hrun] at h hn ha ha' haddressed hasks hchecks hbefore
      refine ⟨first, rest ++ [o], by rw [List.append_assoc, List.cons_append], ?_⟩
      exact hsince.concat hchecks hasks (backed_after h hn ha haddressed ha' hbefore hasks)

/-- **A request stands for callbacks of its thread, unless they have been taken from it.** Where a thread asks for its
callbacks, it has checked for them with one pending; all the time since its request has been for something, or it was
exhausted, and so between callbacks one is pending or it was exhausted. A callback runs on a thread that is in a wait for
callbacks or asks for them. What exhausts a request leaves it standing, for nothing. -/
theorem requests_run (config : KernelConfig) (memory : Memory) (operations : List Operation)
    (hids : (Kernel.new config memory).handedOut operations < 2 ^ 32 - 1) (id : ThreadId) :
    let k := (Kernel.new config memory).run operations
    (k.asks id = true → ∃ first rest, operations = first ++ .syscall .checkCallback :: rest ∧
        ((Kernel.new config memory).run first).AsksSince id rest ∧
        (k.delivering = none → (∃ c, k.Pends id c) ∨
          (((Kernel.new config memory).run first).after (.syscall .checkCallback)).Spent id rest)) ∧
      (∀ context i, k.dispatch.1 = some ⟨id, context, .runCallback i⟩ → ∃ t, k.thread? id = some t ∧
        ((t.status = .onlyWaiting ∧ ∃ w, t.wait = some w ∧ w.callbacks = true) ∨
          (t.status = .onlyReady ∨ t.status = .onlyRunning) ∧ k.asks id = true)) ∧
      ∀ o, k.Exhausts id o → (k.after o).asks id = true ∧ ¬ (k.after o).Backed id := by
  obtain ⟨h, -⟩ := leased_run config memory operations hids
  have hn := nodup_started_run config memory operations
  refine ⟨fun hasks => ?_, fun context i hrun => ?_, fun o hexhausts => exhausted_after h hn hexhausts⟩
  · obtain ⟨first, rest, hsplit, hsince⟩ := asksSince_run config memory operations hids hasks
    refine ⟨first, rest, hsplit, hsince, fun hidle => ?_⟩
    have hbacked := hsince.backed rest (List.prefix_refl rest)
    rw [← run_cons, ← run_append, ← hsplit] at hbacked
    refine hbacked.imp_left fun hyes => hyes.resolve_right ?_
    rintro ⟨d, hd, -⟩
    cases hidle.symm.trans hd
  · obtain ⟨t, c, hdelivers, rfl, -⟩ := h.1.of_dispatch (attached_run config memory operations hids) hrun
    obtain ⟨ht, hletsIn, -⟩ := hdelivers.owes
    refine ⟨t, ht, hletsIn.imp_right fun hchecks => ⟨hchecks.1, ?_⟩⟩
    exact asks_iff.mpr ⟨t, ht, hletsIn.alive, hchecks.2⟩

/-- A thread asks for two callbacks, and the first is deleted. -/
def halvedRequest : List Operation :=
  [.syscall (.createThread "owner" 0x08900000 32 0x1000 0), .syscall (.startThread 1 0 0), .dispatch,
    .syscall (.createCallback "first" 0x08901000 0), .syscall (.createCallback "second" 0x08901000 0),
    .syscall (.notifyCallback 2 5), .syscall (.notifyCallback 3 7), .syscall .checkCallback,
    .syscall (.deleteCallback 2)]

/-- The second is still to run. Without it the request is for nothing. -/
theorem requests_run_halvedRequest :
    let k := (Kernel.new {} {}).run halvedRequest
    (Kernel.new {} {}).handedOut halvedRequest < 2 ^ 32 - 1 ∧ k.asks 1 = true ∧ k.delivering = none ∧
      k.dispatch.1 = some ⟨1, 1, .runCallback ⟨3, 0x08901000, 1, 7, 0⟩⟩ ∧
      (∃ first rest, halvedRequest = first ++ .syscall .checkCallback :: rest ∧
        ((Kernel.new {} {}).run first).AsksSince 1 rest) ∧
      k.Exhausts 1 (.syscall (.deleteCallback 3)) ∧ ¬ (k.after (.syscall (.deleteCallback 3))).Backed 1 := by
  have hids : (Kernel.new {} {}).handedOut halvedRequest < 2 ^ 32 - 1 := handedOut_lt (by decide)
  have hasks : ((Kernel.new {} {}).run halvedRequest).asks 1 = true := by decide +kernel
  have hidle : ((Kernel.new {} {}).run halvedRequest).delivering = none := by decide +kernel
  have hrun : ((Kernel.new {} {}).run halvedRequest).dispatch.1 =
      some ⟨1, 1, .runCallback ⟨3, 0x08901000, 1, 7, 0⟩⟩ := by decide +kernel
  have hlist : (((Kernel.new {} {}).run halvedRequest).thread? 1).map (fun t => (t.callbacks, t.status.dead)) =
      some ([3], false) := by decide +kernel
  have hcount : (((Kernel.new {} {}).run halvedRequest).objects.callback? 3).map (fun c => (c.owner, c.notifyCount)) =
      some (1, 1) := by decide +kernel
  obtain ⟨hasked, -, hexhausted⟩ := requests_run {} {} halvedRequest hids 1
  obtain ⟨first, rest, hsplit, hsince, -⟩ := hasked hasks
  have hexhausts : ((Kernel.new {} {}).run halvedRequest).Exhausts 1 (.syscall (.deleteCallback 3)) := by
    obtain ⟨c, hc, hpair⟩ := Option.map_eq_some_iff.mp hcount
    obtain ⟨t, ht, hpair'⟩ := Option.map_eq_some_iff.mp hlist
    obtain ⟨howner, hone⟩ := Prod.mk.inj hpair
    obtain ⟨hthree, halive⟩ := Prod.mk.inj hpair'
    have hid : c.id = 3 := ObjectTable.id_of_get? (ObjectTable.callback?_eq_some.mp hc)
    have hpends : ((Kernel.new {} {}).run halvedRequest).Pends 1 c := ⟨hid ▸ hc, howner, by rw [hone]; decide⟩
    refine ⟨hasks, fun d hd => ?_, c, hpends, fun c' hc' => ?_, Or.inl (by rw [hid])⟩
    · cases hidle.symm.trans hd
    · have hmem := hc'.listed (attached_run {} {} halvedRequest hids) ht halive
      rw [hthree, List.mem_singleton] at hmem
      exact hc'.eq_of_id hpends (hmem.trans hid.symm)
  exact ⟨hids, hasks, hidle, hrun, ⟨first, rest, hsplit, hsince⟩, hexhausts, (hexhausted _ hexhausts).2⟩

/-- A thread asks for its only callback, which is then deleted. -/
def deletedCallback : List Operation :=
  [.syscall (.createThread "owner" 0x08900000 32 0x1000 0), .syscall (.startThread 1 0 0), .dispatch,
    .syscall (.createCallback "first" 0x08901000 0), .syscall (.notifyCallback 2 5), .syscall .checkCallback,
    .syscall (.deleteCallback 2)]

/-- The thread makes another callback, which is notified. -/
def laterCallback : List Operation :=
  [.syscall (.createCallback "second" 0x08901000 0), .syscall (.notifyCallback 3 7)]

/-- **A request outlives the callback that it was for.** No callback runs and none is pending, and the thread still asks;
the callback that it makes later runs on it though it neither waits nor has checked again. -/
theorem request_outlives_deletedCallback :
    let k := (Kernel.new {} {}).run deletedCallback
    k.delivering = none ∧ k.asks 1 = true ∧ (∀ c, ¬ k.Pends 1 c) ∧ (k.run laterCallback).waitOf? 1 = none ∧
      (k.run laterCallback).dispatch.1 = some ⟨1, 1, .runCallback ⟨3, 0x08901000, 1, 7, 0⟩⟩ := by
  have hids : (Kernel.new {} {}).handedOut deletedCallback < 2 ^ 32 - 1 := handedOut_lt (by decide)
  have hlist : (((Kernel.new {} {}).run deletedCallback).thread? 1).map (fun t => (t.callbacks, t.status.dead)) =
      some ([], false) := by decide +kernel
  have hidle : ((Kernel.new {} {}).run deletedCallback).delivering = none := by decide +kernel
  have hasks : ((Kernel.new {} {}).run deletedCallback).asks 1 = true := by decide +kernel
  have hnone : ∀ c, ¬ ((Kernel.new {} {}).run deletedCallback).Pends 1 c := by
    intro c hc
    obtain ⟨t, ht, hpair⟩ := Option.map_eq_some_iff.mp hlist
    obtain ⟨hnil, halive⟩ := Prod.mk.inj hpair
    have hmem := hc.listed (attached_run {} {} deletedCallback hids) ht halive
    rw [hnil] at hmem
    cases hmem
  have hwait : (((Kernel.new {} {}).run deletedCallback).run laterCallback).waitOf? 1 = none := by decide +kernel
  have hrun : (((Kernel.new {} {}).run deletedCallback).run laterCallback).dispatch.1 =
      some ⟨1, 1, .runCallback ⟨3, 0x08901000, 1, 7, 0⟩⟩ := by decide +kernel
  exact ⟨hidle, hasks, hnone, hwait, hrun⟩

end Kernel
end GuestKernel
