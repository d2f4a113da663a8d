/-
# Notifications of callbacks

Notifications of a callback add up until it runs, and it is told how many there were and what the latest one said. Four
things can become of a callback, and an operation does one of them (`callback_cases`).

| operation | notifications in | out | pending | argument |
| --- | --- | --- | --- | --- |
| makes it | | | 0 | |
| notifies it | 1 | | one more | that of the notification |
| dispatch runs it | | `n` | from `n` to 0 | |
| any other | | | | |

So the pending ones are an account, and the argument is that of the latest notification (`LatestNotice`). With the choice
that dispatch makes, this says of each invocation which callback it runs, where, and what it is told
(`notifications_run`).

Source: specification, 4.6.
-/

import Mathlib.Algebra.Group.Int.Defs
import GuestKernel.Proofs.Accounts
import GuestKernel.Proofs.CallbackChoice

namespace GuestKernel

/-- The callback that the processor is to run. -/
def DispatchAction.invocation? : DispatchAction → Option Invocation
  | resume => none
  | runCallback i => some i

theorem Operation.eq_of_notifies? {o : Operation} {x : ObjectId} {argument : UInt32}
    (h : o.notifies? = some (x, argument)) : o = .syscall (.notifyCallback x argument) := by
  cases o with
  | syscall call =>
    cases call with
    | notifyCallback =>
      cases h
      rfl
    | _ => cases h
  | _ => cases h

namespace Kernel

variable {k : Kernel} {o : Operation} {x : ObjectId} {c c' : Callback} {argument : UInt32}

/-! ### What is counted -/

/-- The operation notifies the callback of an id, which exists. -/
def Notifies (x : ObjectId) (argument : UInt32) (k : Kernel) (o : Operation) : Prop :=
  o.notifies? = some (x, argument) ∧ (k.notifyCallback x argument).result.isOk = true

/-- 1 for a notification of the callback that succeeds. -/
def notified (x : ObjectId) (k : Kernel) (o : Operation) : Int :=
  if (o.notifies?).any (fun e => e.1 = x && (k.notifyCallback x e.2).result.isOk) = true then 1 else 0

/-- The callback that an operation puts on the processor. -/
def invocation? (k : Kernel) : Operation → Option Invocation
  | .dispatch => k.dispatch.1.bind (·.action.invocation?)
  | _ => none

/-- The count with which an operation runs the callback. -/
def invoked (x : ObjectId) (k : Kernel) (o : Operation) : Int :=
  (((k.invocation? o).filter (·.callback = x)).map fun i => (i.count.toNat : Int)).getD 0

theorem notified_nonneg (x : ObjectId) (k : Kernel) (o : Operation) : 0 ≤ notified x k o := by
  unfold notified
  split <;> decide

theorem invoked_nonneg (x : ObjectId) (k : Kernel) (o : Operation) : 0 ≤ invoked x k o := by
  unfold invoked
  cases (k.invocation? o).filter (·.callback = x) with
  | none => exact Int.le_refl 0
  | some i => exact Int.natCast_nonneg _

theorem notified_eq_one (h : k.Notifies x argument o) : notified x k o = 1 := by
  refine if_pos ?_
  rw [h.1, Option.any_some, h.2, decide_eq_true rfl]
  rfl

theorem notified_eq_zero (h : ∀ argument, ¬ k.Notifies x argument o) : notified x k o = 0 := by
  refine if_neg fun hyes => ?_
  cases ho : o.notifies? with
  | none =>
    rw [ho] at hyes
    cases hyes
  | some e =>
    rw [ho, Option.any_some] at hyes
    obtain ⟨hx, hok⟩ := Bool.and_eq_true_iff.mp hyes
    obtain rfl : e.1 = x := of_decide_eq_true hx
    exact h e.2 ⟨ho, hok⟩

theorem invoked_eq_zero (h : o ≠ .dispatch) : invoked x k o = 0 := by
  cases o <;> first | rfl | exact absurd rfl h

/-- A notification of a callback that exists succeeds; without the callback nothing happens. -/
theorem notifyCallback_cases (k : Kernel) (x : ObjectId) (argument : UInt32) :
    (k.objects.callback? x = none ∧ (k.notifyCallback x argument).result.isOk = false) ∨
      ∃ c, k.objects.callback? x = some c ∧ (k.notifyCallback x argument).result.isOk = true ∧
        (∀ y, (k.notifyCallback x argument).kernel.thread? y = k.thread? y) ∧
        ∀ y, (k.notifyCallback x argument).kernel.objects.callback? y =
          if x = y then some (c.notify argument) else k.objects.callback? y := by
  unfold notifyCallback
  cases hc : k.objects.callback? x with
  | none => exact Or.inl ⟨rfl, rfl⟩
  | some c =>
    have hget := ObjectTable.callback?_eq_some.mp hc
    obtain rfl : c.id = x := ObjectTable.id_of_get? hget
    refine Or.inr ⟨c, rfl, rfl, fun y => ?_, fun y => callback?_put (c.notify argument) y⟩
    exact thread?_put_of_kind_ne (o := .callback c) (.callback (c.notify argument)) hget (fun hk => by cases hk) rfl rfl y

theorem after_of_notifies? (h : o.notifies? = some (x, argument)) :
    k.after o = (k.notifyCallback x argument).kernel ∧ o.attaches = false ∧ o ≠ .dispatch := by
  obtain rfl := Operation.eq_of_notifies? h
  exact ⟨rfl, rfl, fun heq => by cases heq⟩

theorem Notifies.isSome (h : k.Notifies x argument o) : (k.objects.callback? x).isSome = true := by
  obtain ⟨-, hfails⟩ | ⟨c, hc, -⟩ := notifyCallback_cases k x argument
  · cases hfails.symm.trans h.2
  · rw [hc]
    rfl

/-! ### What becomes of a callback -/

/-- A new callback takes the next id and has no notifications. -/
theorem callback_new (h : k.Coherent ∧ k.IdsBelow) (hn : k.started.Nodup) (hnone : k.objects.callback? x = none)
    (hc' : (k.after o).objects.callback? x = some c') : x = k.nextId ∧ c'.notifyCount = 0 := by
  obtain ⟨-, L, hnew, -⟩ := staged_after (o := o) (P := fun s => ∀ c', s.kernel.objects.callback? x = some c' →
    o.attaches = true ∧ x = k.nextId ∧ c'.notifyCount = 0) h hn (fun l s s' hl _ hfresh hm hs c' hc' => by
      obtain heq | ⟨u, rfl, hu, hid, hzero⟩ | ⟨u, -, hgone, -⟩ | ⟨u, u', rfl, hu, -, rfl, -⟩ := hm.callback? hfresh x
      · exact hs c' (heq.symm.trans hc')
      · obtain ⟨hattaches, hnext⟩ := hl.create_callback
        rw [← Option.some.inj (hu.symm.trans hc')]
        exact ⟨hattaches, hid.symm.trans hnext, hzero⟩
      · cases hgone.symm.trans hc'
      · -- What makes a callback does not change it.
        obtain ⟨hattaches, -⟩ := hs u hu
        rcases hl.change_callback with ⟨argument, hyes, -⟩ | ⟨rfl, -⟩
        · cases hattaches.symm.trans (after_of_notifies? (k := k) hyes).2.1
        · cases hattaches) fun c' hc' => by
      cases hnone.symm.trans hc'
  exact (hnew c' hc').2

/-- A dispatch that runs no callback counts for none. -/
theorem DeliversNone.invoked (h : k.DeliversNone) (x : ObjectId) : invoked x k .dispatch = 0 := by
  have hnone : k.invocation? .dispatch = none := by
    refine Option.eq_none_iff_forall_ne_some.mpr fun i hi => ?_
    obtain ⟨⟨thread, context, action⟩, hd, haction⟩ := Option.bind_eq_some_iff.mp hi
    cases action with
    | resume => cases haction
    | runCallback j => exact h.answer thread context j hd
  unfold Kernel.invoked
  rw [hnone]
  rfl

/-- A dispatch that runs a callback counts all its notifications, for it alone. -/
theorem Delivers.invoked {t : Thread} (h : k.Delivers t c) (x : ObjectId) :
    invoked x k .dispatch = if c.id = x then (c.notifyCount.toNat : Int) else 0 := by
  obtain ⟨context, -, hanswer⟩ := h.answer
  have hsome : k.invocation? .dispatch =
      some ⟨c.id, c.entry, c.notifyCount, c.notifyArgument, c.commonArgument⟩ := by
    show k.dispatch.1.bind _ = _
    rw [hanswer]
    rfl
  unfold Kernel.invoked
  rw [hsome, Option.filter_some]
  by_cases hx : c.id = x
  · rw [if_pos hx, if_pos (decide_eq_true hx)]
    rfl
  · rw [if_neg hx, if_neg (by rw [decide_eq_false hx]; exact Bool.false_ne_true)]
    rfl

/-- Dispatch takes the notifications of the callback that it runs, and leaves the others alone. -/
theorem dispatch_callback (hk : k.Coherent) (ha : k.Attached) (hc : k.objects.callback? x = some c)
    (hc' : (k.after .dispatch).objects.callback? x = some c') :
    (c' = c ∧ invoked x k .dispatch = 0) ∨ (c' = c.taken ∧ invoked x k .dispatch = c.notifyCount.toNat) := by
  replace hc' : k.dispatch.2.objects.callback? x = some c' := hc'
  obtain hnone | ⟨t, c₀, hdelivers⟩ := hk.delivers_cases ha
  · rw [hnone.callback] at hc'
    exact Or.inl ⟨Option.some.inj (hc'.symm.trans hc), hnone.invoked x⟩
  · have hinvoked := hdelivers.invoked x
    rw [hdelivers.callback] at hc'
    by_cases hx : c₀.id = x
    · have hsame := hdelivers.owes.callback
      rw [hx] at hsame
      obtain rfl := Option.some.inj (hsame.symm.trans hc)
      rw [if_pos hx] at hc' hinvoked
      exact Or.inr ⟨(Option.some.inj hc').symm, hinvoked⟩
    · rw [if_neg hx] at hc' hinvoked
      exact Or.inl ⟨Option.some.inj (hc'.symm.trans hc), hinvoked⟩

/-- A callback that does not exist does not run. -/
theorem invoked_of_none (hk : k.Coherent) (ha : k.Attached) (hc : k.objects.callback? x = none) :
    invoked x k o = 0 := by
  by_cases hdispatch : o = .dispatch
  · subst hdispatch
    obtain hnone | ⟨t, c, hdelivers⟩ := hk.delivers_cases ha
    · exact hnone.invoked x
    · refine (hdelivers.invoked x).trans (if_neg ?_)
      rintro rfl
      cases hc.symm.trans hdelivers.owes.callback
  · exact invoked_eq_zero hdispatch

/-- **What an operation does to a callback**: it makes it, notifies it, runs it, or leaves it alone. -/
theorem callback_cases (h : k.Coherent ∧ k.IdsBelow) (hn : k.started.Nodup) (ha : k.Attached)
    (hc' : (k.after o).objects.callback? x = some c') :
    (k.objects.callback? x = none ∧ x = k.nextId ∧ c'.notifyCount = 0) ∨
      ∃ c, k.objects.callback? x = some c ∧
        ((∃ argument, k.Notifies x argument o ∧ c' = c.notify argument ∧ invoked x k o = 0) ∨
          (∀ argument, ¬ k.Notifies x argument o) ∧ ((c' = c ∧ invoked x k o = 0) ∨
            (c' = c.taken ∧ invoked x k o = c.notifyCount.toNat))) := by
  cases hc : k.objects.callback? x with
  | none => exact Or.inl ⟨rfl, callback_new h hn hc hc'⟩
  | some c =>
    refine Or.inr ⟨c, rfl, ?_⟩
    by_cases hnotifies : ∃ argument, o.notifies? = some (x, argument)
    · obtain ⟨argument, ho⟩ := hnotifies
      obtain ⟨hafter, -, hdispatch⟩ := after_of_notifies? (k := k) ho
      obtain ⟨hnone, -⟩ | ⟨c₁, hc₁, hok, -, hnotified⟩ := notifyCallback_cases k x argument
      · cases hc.symm.trans hnone
      · obtain rfl := Option.some.inj (hc.symm.trans hc₁)
        rw [hafter, hnotified, if_pos rfl] at hc'
        exact Or.inl ⟨argument, ⟨ho, hok⟩, (Option.some.inj hc').symm, invoked_eq_zero hdispatch⟩
    · have hnot : ∀ argument, o.notifies? ≠ some (x, argument) := fun argument ho => hnotifies ⟨argument, ho⟩
      refine Or.inr ⟨fun argument hyes => hnot argument hyes.1, ?_⟩
      by_cases hdispatch : o = .dispatch
      · subst hdispatch
        exact dispatch_callback h.1 ha hc hc'
      · exact Or.inl ⟨callback_kept h hn hc hnot hdispatch hc', invoked_eq_zero hdispatch⟩

/-! ### The account -/

/-- The pending notifications of a callback. -/
def notificationAccount (x : ObjectId) : Account where
  held k := (k.objects.callback? x).map fun c => (c.notifyCount.toNat : Int)
  added := notified x
  taken := invoked x

/-- **The account of a callback's notifications is kept by every operation**, while there is room for one more. -/
theorem notificationAccount_kept (h : k.Coherent ∧ k.IdsBelow) (hn : k.started.Nodup) (ha : k.Attached)
    (hroom : ∀ c, k.objects.callback? x = some c → notified x k o = 1 → c.notifyCount.toNat + 1 < 2 ^ 32) :
    (notificationAccount x).Kept x k o where
  opens v hnone hsome := by
    obtain ⟨c', hc', rfl⟩ := Option.map_eq_some_iff.mp hsome
    obtain ⟨hid, hzero⟩ := callback_new h hn (Option.map_eq_none_iff.mp hnone) hc'
    exact ⟨hid, by rw [hzero]; rfl⟩
  rests hnone := by
    have hc : k.objects.callback? x = none := Option.map_eq_none_iff.mp hnone
    refine ⟨notified_eq_zero fun argument hyes => ?_, invoked_of_none h.1 ha hc⟩
    have hsome := hyes.isSome
    rw [hc] at hsome
    cases hsome
  moves v v' hv hv' := by
    obtain ⟨c, hc, rfl⟩ := Option.map_eq_some_iff.mp hv
    obtain ⟨c', hc', rfl⟩ := Option.map_eq_some_iff.mp hv'
    show (c'.notifyCount.toNat : Int) + invoked x k o = c.notifyCount.toNat + notified x k o
    obtain ⟨hnone, -⟩ | ⟨c₁, hc₁, hcase⟩ := callback_cases h hn ha hc'
    · cases hnone.symm.trans hc
    · obtain rfl := Option.some.inj (hc.symm.trans hc₁)
      obtain ⟨argument, hyes, rfl, hinvoked⟩ | ⟨hno, ⟨rfl, hinvoked⟩ | ⟨rfl, hinvoked⟩⟩ := hcase
      · have hone := notified_eq_one hyes
        have hfew := hroom c hc hone
        rw [hinvoked, hone]
        show (((c.notifyCount + 1).toNat : Nat) : Int) + 0 = _
        rw [UInt32.toNat_add, show (1 : UInt32).toNat = 1 from rfl, Nat.mod_eq_of_lt hfew]
        omega
      · rw [hinvoked, notified_eq_zero hno]
      · rw [hinvoked, notified_eq_zero hno]
        show (0 : Int) + _ = _
        omega
  unborn hid := by
    refine Option.map_eq_none_iff.mpr (Option.eq_none_iff_forall_ne_some.mpr fun c hc => ?_)
    exact Nat.not_lt.mpr hid (UInt32.lt_iff_toNat_lt.mp (h.2.callback_lt hc))

/-- With fewer than `2 ^ 32` notifications there is always room, and the account is kept along the run. -/
theorem notificationAccount_along (config : KernelConfig) (memory : Memory) (operations : List Operation)
    (hids : (Kernel.new config memory).handedOut operations < 2 ^ 32 - 1) (x : ObjectId)
    (hfew : (Kernel.new config memory).sumAlong (notified x) operations < 2 ^ 32) :
    (Kernel.new config memory).Along ((notificationAccount x).Kept x) operations := by
  induction operations using List.reverseRecOn with
  | nil => trivial
  | append_singleton operations o ih =>
    have hids' := Nat.lt_of_le_of_lt (handedOut_le_append _ operations [o]) hids
    have hlast : ((Kernel.new config memory).run operations).sumAlong (notified x) [o] =
        notified x ((Kernel.new config memory).run operations) o := Int.add_zero _
    rw [sumAlong_append, hlast] at hfew
    have hnonneg := notified_nonneg x ((Kernel.new config memory).run operations) o
    have hkept := ih hids' (by omega)
    refine along_append.mpr ⟨hkept, ?_, trivial⟩
    obtain ⟨hk, -⟩ := leased_run config memory operations hids'
    refine notificationAccount_kept hk (nodup_started_run config memory operations)
      (attached_run config memory operations hids') fun c hc hone => ?_
    -- What is pending is part of what has come.
    have hnext := nextId_new config memory
    have hbalance := Account.balance hkept (nodup_started_new config memory) (by omega)
      (show (notificationAccount x).held _ = some (c.notifyCount.toNat : Int) from Option.map_eq_some_iff.mpr ⟨c, hc, rfl⟩)
    have hempty : (notificationAccount x).held (Kernel.new config memory) = none :=
      Option.map_eq_none_iff.mpr (callback?_eq_none_of_get? (get?_new config memory x))
    have htaken := sumAlong_nonneg (invoked_nonneg x) (Kernel.new config memory) operations
    rw [hempty, Option.getD_none, show (notificationAccount x).taken = invoked x from rfl,
      show (notificationAccount x).added = notified x from rfl] at hbalance
    omega

/-! ### The latest notification -/

/-- The latest notification of the callback had the argument. -/
def LatestNotice (k : Kernel) (operations : List Operation) (x : ObjectId) (argument : UInt32) : Prop :=
  ∃ first o rest, operations = first ++ o :: rest ∧ (k.run first).Notifies x argument o ∧
    ((k.run first).after o).Along (fun k o => ∀ argument, ¬ k.Notifies x argument o) rest

/-- The latest notification stays so until there is another. -/
theorem LatestNotice.concat {operations : List Operation} (h : k.LatestNotice operations x argument)
    (ho : ∀ argument, ¬ (k.run operations).Notifies x argument o) : k.LatestNotice (operations ++ [o]) x argument := by
  obtain ⟨first, o₁, rest, rfl, hnotifies, hrest⟩ := h
  refine ⟨first, o₁, rest ++ [o], by rw [List.append_assoc, List.cons_append], hnotifies, ?_⟩
  rw [run_append, run_cons] at ho
  exact along_append.mpr ⟨hrest, ho, trivial⟩

/-- **A callback with pending notifications has the argument of the latest one.** -/
theorem latestNotice_run (config : KernelConfig) (memory : Memory) (operations : List Operation)
    (hids : (Kernel.new config memory).handedOut operations < 2 ^ 32 - 1)
    (hc : ((Kernel.new config memory).run operations).objects.callback? x = some c) (hpending : 0 < c.notifyCount) :
    (Kernel.new config memory).LatestNotice operations x c.notifyArgument := by
  induction operations using List.reverseRecOn generalizing c with
  | nil =>
    rw [run_nil, callback?_eq_none_of_get? (get?_new config memory x)] at hc
    cases hc
  | append_singleton operations o ih =>
    have hids' := Nat.lt_of_le_of_lt (handedOut_le_append _ operations [o]) hids
    obtain ⟨hk, -⟩ := leased_run config memory operations hids'
    rw [run_concat] at hc
    obtain ⟨-, -, hzero⟩ | ⟨c₁, hc₁, hcase⟩ := callback_cases hk (nodup_started_run config memory operations)
      (attached_run config memory operations hids') hc
    · rw [hzero] at hpending
      exact absurd hpending (UInt32.lt_irrefl 0)
    · obtain ⟨argument, hyes, rfl, -⟩ | ⟨hno, ⟨rfl, -⟩ | ⟨rfl, -⟩⟩ := hcase
      · exact ⟨operations, o, [], rfl, hyes, trivial⟩
      · exact (ih hids' hc₁ hpending).concat hno
      · exact absurd hpending (UInt32.lt_irrefl 0)

/-! ### Invocations -/

/-- What an invocation of a callback is told, and where it runs: on its owner, which lets callbacks in. -/
structure Invokes (k : Kernel) (operations : List Operation) (thread : ThreadId) (context : ContextId) (i : Invocation)
    (t : Thread) (c : Callback) : Prop where
  chosen : k.Chosen operations t c
  thread : thread = t.id
  context : t.context = some context
  callback : i.callback = c.id
  entry : i.entry = c.entry
  count : i.count = c.notifyCount
  /-- There is something to tell. -/
  counted : 1 ≤ i.count
  latest : k.LatestNotice operations c.id i.argument
  commonArgument : i.commonArgument = c.commonArgument

/-- **Notifications are delivered once, to the owner.** The counts with which a callback has run and its pending
notifications add up to those that have come. Each invocation runs the callback that is to be chosen, on its owner, and
tells the number of its notifications and the argument of the latest. While no callback runs, dispatch runs one if and only
if a thread that lets callbacks in owes one. -/
theorem notifications_run (config : KernelConfig) (memory : Memory) (operations : List Operation)
    (hids : (Kernel.new config memory).handedOut operations < 2 ^ 32 - 1) :
    let k := (Kernel.new config memory).run operations
    (∀ x c, k.objects.callback? x = some c →
        (Kernel.new config memory).sumAlong (notified x) operations < 2 ^ 32 →
        (Kernel.new config memory).sumAlong (invoked x) operations + c.notifyCount.toNat =
          (Kernel.new config memory).sumAlong (notified x) operations) ∧
      (∀ thread context i, k.dispatch.1 = some ⟨thread, context, .runCallback i⟩ →
        k.delivering = none ∧ ∃ t c, (Kernel.new config memory).Invokes operations thread context i t c) ∧
      (k.delivering = none →
        ((∃ thread context i, k.dispatch.1 = some ⟨thread, context, .runCallback i⟩) ↔ ∃ t c, k.Owes t c)) := by
  obtain ⟨⟨hk, -⟩, hl, -⟩ := leased_run config memory operations hids
  have ha := attached_run config memory operations hids
  refine ⟨fun x c hc hfew => ?_, fun thread context i hrun => ?_, fun hd => ⟨?_, ?_⟩⟩
  · have hnext := nextId_new config memory
    have hbalance := Account.balance (notificationAccount_along config memory operations hids x hfew)
      (nodup_started_new config memory) (by omega)
      (show (notificationAccount x).held _ = some (c.notifyCount.toNat : Int) from Option.map_eq_some_iff.mpr ⟨c, hc, rfl⟩)
    have hempty : (notificationAccount x).held (Kernel.new config memory) = none :=
      Option.map_eq_none_iff.mpr (callback?_eq_none_of_get? (get?_new config memory x))
    rw [hempty, Option.getD_none, show (notificationAccount x).taken = invoked x from rfl,
      show (notificationAccount x).added = notified x from rfl] at hbalance
    omega
  · obtain ⟨t, c, hdelivers, hthread, hcontext, rfl⟩ := hk.of_dispatch ha hrun
    have hchosen := chosen_run config memory operations hids hdelivers.best
    refine ⟨hdelivers.idle, t, c, hchosen, hthread, hcontext, rfl, rfl, rfl, ?_, ?_, rfl⟩
    · exact UInt32.le_iff_toNat_le.mpr (UInt32.lt_iff_toNat_lt.mp hdelivers.owes.notified)
    · exact latestNotice_run config memory operations hids hdelivers.owes.callback hdelivers.owes.notified
  · rintro ⟨thread, context, i, hrun⟩
    obtain ⟨t, c, hdelivers, -⟩ := hk.of_dispatch ha hrun
    exact ⟨t, c, hdelivers.owes⟩
  · rintro ⟨t, c, howes⟩
    obtain ⟨c', hmem⟩ := howes.mem_deliverable hk ha hl
    cases hbest : bestOf ((Kernel.new config memory).run operations).deliverable with
    | none =>
      rw [bestOf_eq_none.mp hbest] at hmem
      cases hmem
    | some e =>
      obtain ⟨context, -, hanswer⟩ := (hk.delivers ha hd hbest).answer
      exact ⟨_, _, _, hanswer⟩

/-- Two threads of one priority sleep and let callbacks in; the first owns two, the second one. A callback of the first has
run with two notifications, and all three are notified again, the last one to be made first. -/
def crowdedCallbacks : List Operation :=
  [.syscall (.createThread "first" 0x08900000 32 0x1000 0), .syscall (.createThread "second" 0x08900000 32 0x1000 0),
    .syscall (.startThread 1 0 0), .dispatch, .syscall (.createCallback "tick" 0x08901000 11),
    .syscall (.createCallback "tock" 0x08902000 12), .syscall (.sleepThread true), .syscall (.startThread 2 0 0),
    .dispatch, .syscall (.createCallback "other" 0x08903000 13), .syscall (.sleepThread true),
    .syscall (.notifyCallback 3 7), .syscall (.notifyCallback 3 8), .dispatch, .finishCallback 0,
    .syscall (.notifyCallback 5 9), .syscall (.notifyCallback 4 6), .syscall (.notifyCallback 3 1)]

/-- Next the first callback of the first thread runs again, for its third notification. -/
theorem notifications_run_crowdedCallbacks :
    let k := (Kernel.new {} {}).run crowdedCallbacks
    (Kernel.new {} {}).handedOut crowdedCallbacks < 2 ^ 32 - 1 ∧
      k.dispatch.1 = some ⟨1, 1, .runCallback ⟨3, 0x08901000, 1, 1, 11⟩⟩ ∧
      (Kernel.new {} {}).sumAlong (notified 3) crowdedCallbacks = 3 ∧
      (∃ t c, (Kernel.new {} {}).Invokes crowdedCallbacks 1 1 ⟨3, 0x08901000, 1, 1, 11⟩ t c) ∧
      (∃ t c, k.Owes t c) ∧
      ∃ c, k.objects.callback? 3 = some c ∧
        (Kernel.new {} {}).sumAlong (invoked 3) crowdedCallbacks + c.notifyCount.toNat = 3 := by
  have hids : (Kernel.new {} {}).handedOut crowdedCallbacks < 2 ^ 32 - 1 := handedOut_lt (by decide)
  have hrun : ((Kernel.new {} {}).run crowdedCallbacks).dispatch.1 =
      some ⟨1, 1, .runCallback ⟨3, 0x08901000, 1, 1, 11⟩⟩ := by decide +kernel
  have hthree : (Kernel.new {} {}).sumAlong (notified 3) crowdedCallbacks = 3 := by decide +kernel
  have hsome : (((Kernel.new {} {}).run crowdedCallbacks).objects.callback? 3).isSome = true := by decide +kernel
  obtain ⟨c, hc⟩ := Option.isSome_iff_exists.mp hsome
  obtain ⟨hsum, hinvokes, howes⟩ := notifications_run {} {} crowdedCallbacks hids
  obtain ⟨hd, hchosen⟩ := hinvokes 1 1 _ hrun
  have hbalance := hsum 3 c hc (by rw [hthree]; decide)
  exact ⟨hids, hrun, hthree, hchosen, (howes hd).mp ⟨1, 1, _, hrun⟩, c, hc, hbalance.trans hthree⟩

end Kernel
end GuestKernel
