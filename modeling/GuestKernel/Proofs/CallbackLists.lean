/-
# Whose callbacks are whose

A callback knows its owner, and a thread lists its callbacks. The two agree in every reachable state (`attached_run`):
each id on a thread's list is that of a registered callback of the thread, the list is in the order in which the
callbacks were made, and a thread that is alive lists all that it owns. A thread that died may have lost its list while
its callbacks stay, if deleting it failed half way.

What becomes of callbacks is told by the moves (`Move.callback?`): they are made, unregistered, notified or taken, and
nothing else touches them. So an operation that is not about callbacks leaves both sides alone
(`keepsCallbackLists_after`), and the few that are get a lemma each.

Source: specification, 4.6.
-/

import GuestKernel.Proofs.Joins
import GuestKernel.Proofs.ObjectMoves
import GuestKernel.Proofs.ThreadRecords

namespace GuestKernel

/-! ### Callbacks and moves -/

namespace Operation.Permits

variable {o : Operation} {k : Kernel} {c : Callback}

theorem erase_callback (h : o.Permits k (.erase (.callback c))) : o.attaches = true := by
  cases h with
  | touch _ _ hv =>
    rcases hv rfl with ⟨_, -, ⟨⟩⟩ | ⟨_, -, ⟨⟩⟩ | ⟨hattaches, -⟩ | ⟨_, _, -, ⟨⟩⟩ | ⟨-, ⟨⟩⟩
    exact hattaches

theorem create_callback (h : o.Permits k (.create (.callback c))) : o.attaches = true ∧ c.id = k.nextId := by
  obtain ⟨hid, -, hkind⟩ := h.created
  refine ⟨?_, hid⟩
  cases o with
  | syscall call => cases call <;> first | rfl | cases hkind
  | _ => cases hkind

/-- A callback changes as it is notified or as dispatch takes its notifications. -/
theorem change_callback {c' : Callback} (h : o.Permits k (.change (.callback c) (.callback c'))) :
    (∃ argument, o.notifies? = some (c.id, argument) ∧ c' = c.notify argument) ∨ (o = .dispatch ∧ c' = c.taken) := by
  cases h with
  | touch _ _ hv =>
    rcases hv rfl with ⟨_, -, ⟨⟩⟩ | ⟨_, -, ⟨⟩⟩ | ⟨-, ⟨⟩⟩ | ⟨x, argument, hnotifies, rfl, hc'⟩ | ⟨hdispatch, hc'⟩
    · exact Or.inl ⟨argument, hnotifies, hc'⟩
    · exact Or.inr ⟨hdispatch, hc'⟩

end Operation.Permits

namespace Kernel

variable {k k' : Kernel} {x : ObjectId} {o : Object}

theorem callback?_eq_none_of_get? (h : k.objects.get? x = none) : k.objects.callback? x = none := by
  rw [ObjectTable.callback?, h]

theorem callback?_eq_none_of_kind (h : k.objects.get? x = some o) (hk : o.kind ≠ .callback) :
    k.objects.callback? x = none := by
  refine Option.eq_none_iff_forall_ne_some.mpr fun c hc => hk ?_
  rw [Option.some.inj (h.symm.trans (ObjectTable.callback?_eq_some.mp hc))]
  rfl

/-- What changes threads only leaves callbacks alone. -/
theorem OnlyThreads.callback? (h : OnlyThreads k k') (x : ObjectId) :
    k'.objects.callback? x = k.objects.callback? x := by
  obtain heq | ⟨t, t', ht, ht', -⟩ := h.objects x
  · unfold ObjectTable.callback?
    rw [heq]
  · have hkind : ∀ u : Thread, (Object.thread u).kind ≠ .callback := fun u hk => by cases hk
    rw [callback?_eq_none_of_kind ht (hkind t), callback?_eq_none_of_kind ht' (hkind t')]

/-- Storing an object that is no callback in the place of another hides none. -/
theorem callback?_put_of_kind_ne (o' : Object) (ho : k.objects.get? o.id = some o) (hid : o'.id = o.id)
    (hk : o.kind ≠ .callback) (hk' : o'.kind ≠ .callback) (x : ObjectId) :
    (k.put o').objects.callback? x = k.objects.callback? x := by
  have hget : (k.put o').objects.get? x = if o'.id = x then some o' else k.objects.get? x := ObjectTable.get?_put ..
  by_cases hx : o'.id = x
  · rw [if_pos hx] at hget
    rw [callback?_eq_none_of_kind hget hk', callback?_eq_none_of_kind (hx ▸ hid ▸ ho) hk]
  · rw [if_neg hx] at hget
    unfold ObjectTable.callback?
    rw [hget]

/-- A stored callback is found under its id. -/
theorem callback?_put (c : Callback) (x : ObjectId) :
    (k.put (.callback c)).objects.callback? x = if c.id = x then some c else k.objects.callback? x := by
  have hget : (k.put (.callback c)).objects.get? x = if c.id = x then some (.callback c) else k.objects.get? x :=
    ObjectTable.get?_put ..
  unfold ObjectTable.callback?
  rw [hget]
  by_cases hx : c.id = x
  · rw [if_pos hx, if_pos hx]
  · rw [if_neg hx, if_neg hx]

/-- Leaving a queue leaves callbacks alone. -/
theorem callback?_detach (k : Kernel) (id : ThreadId) (w : Wait) (x : ObjectId) :
    (k.detach id w).objects.callback? x = k.objects.callback? x := by
  obtain heq | ⟨e, -, heq⟩ | ⟨o, ho, hmem, -, -, heq⟩ := detach_cases k id w <;> rw [heq]
  · rfl
  · have hkind : o.kind ≠ .callback := by
      intro hk
      cases o with
      | callback => cases hmem
      | _ => cases hk
    have hid := ObjectTable.id_of_get? ho
    exact callback?_put_of_kind_ne _ (hid ▸ ho) (Object.id_removeWaiter ..) hkind
      (by rw [Object.kind_removeWaiter]; exact hkind) x

theorem callback?_erase (k : Kernel) (id x : ObjectId) :
    (k.objects.erase id).callback? x = if id = x then none else k.objects.callback? x := by
  unfold ObjectTable.callback?
  rw [ObjectTable.get?_erase]
  by_cases hx : id = x
  · rw [if_pos hx, if_pos hx]
  · rw [if_neg hx, if_neg hx]

end Kernel

/-- **What a move does to a callback**: it makes it, unregisters it, changes it, or leaves it alone. -/
theorem Move.callback? {l : Label} {s s' : Stage} (hm : Move l s s') (hfresh : l.Fresh s.kernel) (x : ObjectId) :
    s'.kernel.objects.callback? x = s.kernel.objects.callback? x ∨
      (∃ c, l = .create (.callback c) ∧ s'.kernel.objects.callback? x = some c ∧ c.id = x ∧ c.notifyCount = 0) ∨
      (∃ c, l = .erase (.callback c) ∧ s'.kernel.objects.callback? x = none ∧ c.id = x) ∨
      ∃ c c', l = .change (.callback c) (.callback c') ∧ s.kernel.objects.callback? x = some c ∧
        s'.kernel.objects.callback? x = some c' ∧ c.id = x ∧ c'.owner = c.owner := by
  have honly := hm.onlyThreads
  cases hm with
  | reserve hq => exact Or.inl (by rw [hq.objects])
  | @create k L o hid hnew =>
    have hget : (k.objects.skipId.put o).get? x = if o.id = x then some o else k.objects.get? x :=
      ObjectTable.get?_put ..
    by_cases hx : o.id = x
    · rw [if_pos hx] at hget
      have hnone := Kernel.callback?_eq_none_of_get? (hfresh o rfl)
      rw [hx] at hnone
      cases o with
      | callback c =>
        exact Or.inr (Or.inl ⟨c, rfl, ObjectTable.callback?_eq_some.mpr hget, hx, hnew⟩)
      | _ =>
        refine Or.inl (Eq.trans ?_ hnone.symm)
        exact Kernel.callback?_eq_none_of_kind (k := { k with objects := _ }) hget (fun hk => by cases hk)
    · rw [if_neg hx] at hget
      refine Or.inl ?_
      show (k.objects.skipId.put o).callback? x = k.objects.callback? x
      unfold ObjectTable.callback?
      rw [hget]
  | @erase k o ho hkind =>
    have herase := Kernel.callback?_erase k o.id x
    by_cases hx : o.id = x
    · rw [if_pos hx] at herase
      cases o with
      | callback c => exact Or.inr (Or.inr (Or.inl ⟨c, rfl, herase, hx⟩))
      | _ =>
        refine Or.inl (Eq.trans herase (Eq.symm ?_))
        exact Kernel.callback?_eq_none_of_kind (hx ▸ ho) (fun hk => by cases hk)
    · exact Or.inl (herase.trans (if_neg hx))
  | @change k o o' off ho hc =>
    have hother : o.kind ≠ .callback → (k.put o').objects.callback? x = k.objects.callback? x := fun hk =>
      Kernel.callback?_put_of_kind_ne _ ho hc.id_eq hk (by rw [hc.kind_eq]; exact hk) x
    have hself : ∀ c c' : Callback, o = .callback c → o' = .callback c' → c'.id = c.id → c'.owner = c.owner →
        (k.put o').objects.callback? x = k.objects.callback? x ∨
          ∃ c c', Label.change o o' = .change (.callback c) (.callback c') ∧ k.objects.callback? x = some c ∧
            (k.put o').objects.callback? x = some c' ∧ c.id = x ∧ c'.owner = c.owner := by
      rintro c c' rfl rfl hid howner
      have hput := Kernel.callback?_put (k := k) c' x
      by_cases hx : c.id = x
      · rw [if_pos (hid.trans hx)] at hput
        exact Or.inr ⟨c, c', rfl, ObjectTable.callback?_eq_some.mpr (hx ▸ ho), hput, hx, howner⟩
      · exact Or.inl (hput.trans (if_neg fun heq => hx (hid.symm.trans heq)))
    cases hc with
    | notify c argument => exact (hself c _ rfl rfl rfl rfl).imp_right fun h => Or.inr (Or.inr h)
    | take c => exact (hself c _ rfl rfl rfl rfl).imp_right fun h => Or.inr (Or.inr h)
    | _ => exact Or.inl (hother fun hk => by cases hk)
  | @enqueue k o o' t w ho ht hw hq =>
    have hkind : o.kind ≠ .callback := by
      intro hk
      cases hq <;> cases hk
    exact Or.inl (Kernel.callback?_put_of_kind_ne _ ho hq.id_eq hkind (by rw [hq.kind_eq]; exact hkind) x)
  | @launch k L t registers ht hs =>
    have hput := Kernel.onlyThreads_putThread
      { t with context := some k.contexts.freshId, status := .onlyReady } ht rfl rfl
    refine Or.inl (Eq.trans ?_ (hput.callback? x))
    rw [Kernel.objects_launch]
    rfl
  | detach => exact Or.inl (Kernel.callback?_detach ..)
  | @retire k t exitCode ht =>
    have hfell := (Kernel.onlyThreads_fell ht exitCode).callback? x
    obtain ⟨-, heq⟩ | ⟨w, -, heq⟩ := Kernel.retire_eq k t exitCode
    · exact Or.inl (by rw [heq]; exact hfell)
    · exact Or.inl (by rw [heq]; exact (Kernel.callback?_detach ..).trans hfell)
  | @strip k L t contexts ht =>
    exact Or.inl (Kernel.callback?_put_of_kind_ne (o := .thread t) (.thread t.strip)
      (ObjectTable.thread?_eq_some.mp ht) rfl (fun hk => by cases hk) (fun hk => by cases hk) x)
  | @bury k L t ht =>
    refine Or.inl ((Kernel.callback?_erase k t.id x).trans ?_)
    by_cases hx : t.id = x
    · rw [if_pos hx]
      refine (Kernel.callback?_eq_none_of_kind (hx ▸ ObjectTable.thread?_eq_some.mp ht) fun hk => ?_).symm
      cases hk
    · exact if_neg hx
  | _ => exact Or.inl ((honly trivial).callback? x)

namespace Kernel

variable {k k' : Kernel} {o : Operation} {x : ObjectId} {t : Thread} {c c' : Callback}

/-! ### Callbacks and operations -/

/-- **An operation that is not about callbacks leaves them alone.** -/
theorem callback?_after (h : k.Coherent ∧ k.IdsBelow) (hn : k.started.Nodup) (ho : o.attaches = false)
    (hnotifies : ∀ argument, o.notifies? ≠ some (x, argument)) (hdispatch : o ≠ .dispatch) :
    (k.after o).objects.callback? x = k.objects.callback? x := by
  obtain ⟨-, L, heq, -⟩ := staged_after (o := o)
    (P := fun s => s.kernel.objects.callback? x = k.objects.callback? x) h hn (fun l s s' hl _ hfresh hm hs => by
      obtain heq | ⟨c, rfl, -⟩ | ⟨c, rfl, -⟩ | ⟨c, c', rfl, -, -, rfl, -⟩ := hm.callback? hfresh x
      · exact heq.trans hs
      · cases ho.symm.trans hl.create_callback.1
      · cases ho.symm.trans hl.erase_callback
      · rcases hl.change_callback with ⟨argument, hyes, -⟩ | ⟨hyes, -⟩
        · exact absurd hyes (hnotifies argument)
        · exact absurd hyes hdispatch) rfl
  exact heq

/-- A callback that is there before and after an operation that neither notifies it nor dispatches is the same. -/
theorem callback_kept (h : k.Coherent ∧ k.IdsBelow) (hn : k.started.Nodup) (hc : k.objects.callback? x = some c)
    (hnotifies : ∀ argument, o.notifies? ≠ some (x, argument)) (hdispatch : o ≠ .dispatch)
    (hc' : (k.after o).objects.callback? x = some c') : c' = c := by
  have hlt : x ≠ k.nextId := by
    rintro rfl
    rcases h.2 k.nextId with hlt | hnone
    · exact Nat.lt_irrefl _ hlt
    · cases (callback?_eq_none_of_get? hnone).symm.trans hc
  obtain ⟨-, L, heq, -⟩ := staged_after (o := o)
    (P := fun s => ∀ c', s.kernel.objects.callback? x = some c' → c' = c) h hn
    (fun l s s' hl _ hfresh hm hs c' hc' => by
      obtain heq | ⟨u, rfl, -, rfl, -⟩ | ⟨u, rfl, hnone, -⟩ | ⟨u, u', rfl, -, -, rfl, -⟩ := hm.callback? hfresh x
      · exact hs c' (heq.symm.trans hc')
      · exact absurd hl.create_callback.2 hlt
      · cases hnone.symm.trans hc'
      · rcases hl.change_callback with ⟨argument, hyes, -⟩ | ⟨hyes, -⟩
        · exact absurd hyes (hnotifies argument)
        · exact absurd hyes hdispatch) fun c' hc' => Option.some.inj (hc'.symm.trans hc)
  exact heq c' hc'

/-- An operation that is not about callbacks leaves them their owners. -/
theorem owner_after (h : k.Coherent ∧ k.IdsBelow) (hn : k.started.Nodup) (ho : o.attaches = false) (x : ObjectId) :
    ((k.after o).objects.callback? x).map (·.owner) = (k.objects.callback? x).map (·.owner) := by
  obtain ⟨-, L, heq, -⟩ := staged_after (o := o)
    (P := fun s => (s.kernel.objects.callback? x).map (·.owner) = (k.objects.callback? x).map (·.owner)) h hn
    (fun l s s' hl _ hfresh hm hs => by
      obtain heq | ⟨u, rfl, -⟩ | ⟨u, rfl, -⟩ | ⟨u, u', -, hu, hu', -, howner⟩ := hm.callback? hfresh x
      · rw [heq, hs]
      · cases ho.symm.trans hl.create_callback.1
      · cases ho.symm.trans hl.erase_callback
      · rw [← hs, hu, hu', Option.map_some, Option.map_some, howner]) rfl
  exact heq

/-! ### Lists and owners agree -/

/-- The lists of callbacks and the owners of callbacks agree. -/
structure Attached (k : Kernel) : Prop where
  ascending : ∀ x t, k.thread? x = some t → t.callbacks.Pairwise (· < ·)
  owned : ∀ x t, k.thread? x = some t → ∀ id ∈ t.callbacks, ∃ c, k.objects.callback? id = some c ∧ c.owner = x
  listed : ∀ id c t, k.objects.callback? id = some c → k.thread? c.owner = some t → t.status.dead = false →
    id ∈ t.callbacks
  /-- An owner has been made before. -/
  born : ∀ id c, k.objects.callback? id = some c → c.owner.toNat < k.nextId.toNat

/-- Callbacks keep their owners, and threads their lists; the dead may lose theirs, and the new have none. -/
structure KeepsCallbackLists (k k' : Kernel) : Prop where
  nextId : k.nextId.toNat ≤ k'.nextId.toNat
  threads : ∀ x t', k'.thread? x = some t' → (x = k.nextId ∧ t'.callbacks = []) ∨
    ∃ t, k.thread? x = some t ∧ (t'.callbacks = t.callbacks ∨ t'.callbacks = [] ∧ t'.status.dead = true) ∧
      (t'.status.dead = false → t.status.dead = false)
  owners : ∀ x, (k'.objects.callback? x).map (·.owner) = (k.objects.callback? x).map (·.owner)

theorem KeepsCallbackLists.of_objects (h : k'.objects = k.objects) : KeepsCallbackLists k k' where
  nextId := by rw [show k'.nextId = k.nextId from congrArg ObjectTable.nextId h]
  threads x t' ht' := Or.inr ⟨t', by rw [thread?, ← h]; exact ht', Or.inl rfl, id⟩
  owners x := by rw [h]

/-- An owner is the same after. -/
theorem KeepsCallbackLists.owner (h : KeepsCallbackLists k k') (hc' : k'.objects.callback? x = some c') :
    ∃ c, k.objects.callback? x = some c ∧ c.owner = c'.owner := by
  have heq := h.owners x
  rw [hc', Option.map_some] at heq
  exact Option.map_eq_some_iff.mp heq.symm

/-- Lists and owners that are kept go on to agree. -/
theorem Attached.of_keepsLists (h : k.Attached) (ht : KeepsCallbackLists k k') : k'.Attached where
  ascending x t' ht' := by
    obtain ⟨-, hnil⟩ | ⟨t, htx, heq | ⟨hnil, -⟩, -⟩ := ht.threads x t' ht'
    · rw [hnil]
      exact List.Pairwise.nil
    · rw [heq]
      exact h.ascending x t htx
    · rw [hnil]
      exact List.Pairwise.nil
  owned x t' ht' id hid := by
    obtain ⟨-, hnil⟩ | ⟨t, htx, heq | ⟨hnil, -⟩, -⟩ := ht.threads x t' ht'
    · rw [hnil] at hid
      cases hid
    · obtain ⟨c, hc, howner⟩ := h.owned x t htx id (heq ▸ hid)
      have hmap := ht.owners id
      rw [hc, Option.map_some, howner] at hmap
      exact Option.map_eq_some_iff.mp hmap
    · rw [hnil] at hid
      cases hid
  listed id c' t' hc' ht' halive := by
    obtain ⟨c, hc, howner⟩ := ht.owner hc'
    obtain ⟨hnext, -⟩ | ⟨t, htx, heq | ⟨-, hdead⟩, hbefore⟩ := ht.threads _ t' ht'
    · -- Nobody owns anything under an id that is handed out just now.
      have hlt := h.born id c hc
      rw [howner, hnext] at hlt
      exact absurd hlt (Nat.lt_irrefl _)
    · rw [heq]
      exact h.listed id c t hc (howner ▸ htx) (hbefore halive)
    · cases halive.symm.trans hdead
  born id c' hc' := by
    obtain ⟨c, hc, howner⟩ := ht.owner hc'
    exact Nat.lt_of_lt_of_le (howner ▸ h.born id c hc) ht.nextId

/-- Ids go up as long as there are any. -/
theorem nextId_le_of_room (hn : k.started.Nodup) (hbound : k.SparesLastId o) :
    k.nextId.toNat ≤ (k.after o).nextId.toNat := by
  by_cases hsame : (k.after o).nextId = k.nextId
  · rw [hsame]
  · rw [(moves_after k o hn).1.resolve_left hsame, UInt32.toNat_add, show (1 : UInt32).toNat = 1 from rfl,
      Nat.mod_eq_of_lt (hbound hsame)]
    omega

/-- **An operation that is not about callbacks leaves lists and owners alone.** -/
theorem keepsCallbackLists_after (h : k.Coherent ∧ k.IdsBelow) (hn : k.started.Nodup)
    (hbound : k.SparesLastId o) (ho : o.attaches = false) :
    KeepsCallbackLists k (k.after o) where
  nextId := nextId_le_of_room hn hbound
  threads x t' ht' := by
    cases ht : k.thread? x with
    | none =>
      obtain ⟨hid, -, hnil, -⟩ := new_after h hn ht ht'
      exact Or.inl ⟨hid, hnil⟩
    | some t =>
      refine Or.inr ⟨t, rfl, (callbacks_after h hn ho ht ht').2, fun halive => ?_⟩
      refine Bool.eq_false_iff.mpr fun hdead => ?_
      have hdead' := kept_after (Q := fun u => u.status.dead = true) h hn
        (fun l u u' _ _ hstep hu => (hstep.stays_dead hu).1) ht hdead ht'
      cases halive.symm.trans hdead'
  owners x := owner_after h hn ho x

/-! ### Calls about callbacks -/

theorem callback?_putThread (ht : k.thread? t.id = some t) (t' : Thread) (hid : t'.id = t.id) (x : ObjectId) :
    (k.putThread t').objects.callback? x = k.objects.callback? x :=
  callback?_put_of_kind_ne (o := .thread t) (.thread t') (ObjectTable.thread?_eq_some.mp ht) hid
    (fun hk => by cases hk) (fun hk => by cases hk) x

/-- Storing a thread with the same list, or a dead one with none, keeps owners and lists. -/
theorem KeepsCallbackLists.putThread (ht : k.thread? t.id = some t) (t' : Thread) (hid : t'.id = t.id)
    (hlist : t'.callbacks = t.callbacks ∨ t'.callbacks = [] ∧ t'.status.dead = true)
    (hdead : t'.status.dead = false → t.status.dead = false) : KeepsCallbackLists k (k.putThread t') where
  nextId := Nat.le_refl _
  threads x u hu := by
    rw [thread?_putThread] at hu
    by_cases hx : t'.id = x
    · rw [if_pos hx] at hu
      obtain rfl := Option.some.inj hu
      exact Or.inr ⟨t, by rw [← hx, hid]; exact ht, hlist, hdead⟩
    · rw [if_neg hx] at hu
      exact Or.inr ⟨u, hu, Or.inl rfl, id⟩
  owners x := by rw [callback?_putThread ht t' hid]

/-- What a check for callbacks does. -/
theorem checkCallbacks_cases (k : Kernel) :
    (k.checkCallbacks.kernel = k ∧ k.checkCallbacks.result ≠ .ok true) ∨
      ∃ t, k.current = some t.id ∧ k.thread? t.id = some t ∧ (k.pendingCallback? t).isSome = true ∧
        k.checkCallbacks = (k.putThread { t with checksCallbacks := true }).done true := by
  unfold checkCallbacks
  split
  · exact Or.inl ⟨rfl, fun heq => by cases heq⟩
  · next x hcurrent =>
    split
    · exact Or.inl ⟨rfl, fun heq => by cases heq⟩
    · next t ht =>
      obtain rfl := id_of_thread? ht
      split
      · next hpending => exact Or.inr ⟨t, hcurrent, ht, hpending, rfl⟩
      · exact Or.inl ⟨rfl, fun heq => by cases heq⟩

theorem Attached.checkCallbacks (h : k.Attached) : k.checkCallbacks.kernel.Attached := by
  obtain ⟨heq, -⟩ | ⟨t, -, ht, -, heq⟩ := checkCallbacks_cases k <;> rw [heq]
  · exact h
  · exact h.of_keepsLists (.putThread ht { t with checksCallbacks := true } rfl (Or.inl rfl) id)

/-- The kernel with a new callback, which comes last on the list of its owner. -/
def attach (k : Kernel) (t : Thread) (c : Callback) : Kernel :=
  (k.putThread { t with callbacks := t.callbacks ++ [c.id] }).registerNew (.callback c)

/-- A callback is made for the running thread, or the call is refused. -/
theorem createCallback_cases (k : Kernel) (name : String) (entry commonArgument : UInt32) :
    (∃ e, k.createCallback name entry commonArgument = k.refuse e) ∨
      ∃ t, k.current = some t.id ∧ k.thread? t.id = some t ∧ k.createCallback name entry commonArgument =
        (k.attach t { id := k.nextId, name, owner := t.id, entry, commonArgument }).done k.nextId := by
  unfold createCallback
  cases hcurrent : k.current with
  | none => exact Or.inl ⟨_, rfl⟩
  | some owner =>
    dsimp only
    cases ht : k.thread? owner with
    | none => exact Or.inl ⟨_, rfl⟩
    | some t =>
      obtain rfl := id_of_thread? ht
      exact Or.inr ⟨t, rfl, ht, rfl⟩

/-- After it is attached, a callback is registered, and others are as before. -/
theorem callback?_attach (ht : k.thread? t.id = some t) (c : Callback) (x : ObjectId) :
    (k.attach t c).objects.callback? x = if c.id = x then some c else k.objects.callback? x := by
  have hput := callback?_put (k := k.putThread { t with callbacks := t.callbacks ++ [c.id] }) c x
  rw [callback?_putThread ht { t with callbacks := t.callbacks ++ [c.id] } rfl] at hput
  exact hput

/-- After a callback is attached, its owner lists it, and other threads are as before. -/
theorem thread?_attach (k : Kernel) (t : Thread) (c : Callback) (x : ThreadId) : (k.attach t c).thread? x =
    if c.id = x then none else if t.id = x then some { t with callbacks := t.callbacks ++ [c.id] } else k.thread? x := by
  have hput := thread?_put (k := k.putThread { t with callbacks := t.callbacks ++ [c.id] }) (.callback c) x
  rw [thread?_putThread] at hput
  exact hput

theorem IdsBelow.callback_lt (hb : k.IdsBelow) (hc : k.objects.callback? x = some c) : x < k.nextId := by
  rcases hb x with hlt | hnone
  · exact UInt32.lt_iff_toNat_lt.mpr hlt
  · cases (callback?_eq_none_of_get? hnone).symm.trans hc

/-- A new callback has the greatest id, so it comes last on the list of its owner. -/
theorem Attached.attach (h : k.Attached) (hb : k.IdsBelow) (hroom : k.nextId.toNat + 1 < 2 ^ 32)
    (ht : k.thread? t.id = some t) (hid : c.id = k.nextId) (howner : c.owner = t.id) : (k.attach t c).Attached := by
  have hlt : t.id.toNat < k.nextId.toNat := hb.thread_lt ht
  have hne : c.id ≠ t.id := fun heq => Nat.lt_irrefl _ (heq ▸ hid ▸ hlt)
  have hnext : (k.attach t c).nextId.toNat = k.nextId.toNat + 1 := by
    show (k.nextId + 1).toNat = _
    rw [UInt32.toNat_add, show (1 : UInt32).toNat = 1 from rfl, Nat.mod_eq_of_lt hroom]
  have hold : ∀ {y c₁}, k.objects.callback? y = some c₁ → (k.attach t c).objects.callback? y = some c₁ := by
    intro y c₁ hc₁
    rw [callback?_attach ht, if_neg, hc₁]
    rintro rfl
    exact UInt32.lt_irrefl _ (hid ▸ hb.callback_lt hc₁)
  -- Who is there has been there, and only the owner has a longer list.
  have hthreads : ∀ {x u}, (k.attach t c).thread? x = some u →
      (x = t.id ∧ u = { t with callbacks := t.callbacks ++ [c.id] }) ∨ k.thread? x = some u := by
    intro x u hu
    rw [thread?_attach] at hu
    split at hu
    · cases hu
    · split at hu
      · next hx => exact Or.inl ⟨hx.symm, (Option.some.inj hu).symm⟩
      · exact Or.inr hu
  constructor
  · intro x u hu
    obtain ⟨-, rfl⟩ | hu := hthreads hu
    · refine List.pairwise_append.mpr ⟨h.ascending t.id t ht, List.pairwise_singleton _ _, fun a ha b hb' => ?_⟩
      obtain ⟨c₁, hc₁, -⟩ := h.owned t.id t ht a ha
      rw [List.mem_singleton.mp hb', hid]
      exact hb.callback_lt hc₁
    · exact h.ascending x u hu
  · intro x u hu y hy
    obtain ⟨rfl, rfl⟩ | hu := hthreads hu
    · rcases List.mem_append.mp hy with hmem | hlast
      · obtain ⟨c₁, hc₁, howner₁⟩ := h.owned t.id t ht y hmem
        exact ⟨c₁, hold hc₁, howner₁⟩
      · rw [List.mem_singleton.mp hlast]
        exact ⟨c, (callback?_attach ht c c.id).trans (if_pos rfl), howner⟩
    · obtain ⟨c₁, hc₁, howner₁⟩ := h.owned x u hu y hy
      exact ⟨c₁, hold hc₁, howner₁⟩
  · intro y c₁ u hc₁ hu halive
    rw [callback?_attach ht] at hc₁
    split at hc₁
    · next hy =>
      obtain rfl := Option.some.inj hc₁
      rw [howner, thread?_attach, if_neg hne, if_pos rfl] at hu
      rw [← Option.some.inj hu, ← hy]
      exact List.mem_append_right _ (List.mem_singleton_self _)
    · obtain ⟨hx, rfl⟩ | hu := hthreads hu
      · exact List.mem_append_left _ (h.listed y c₁ t hc₁ (hx ▸ ht) halive)
      · exact h.listed y c₁ u hc₁ hu halive
  · intro y c₁ hc₁
    rw [callback?_attach ht] at hc₁
    rw [hnext]
    split at hc₁
    · rw [← Option.some.inj hc₁, howner]
      exact Nat.lt_succ_of_lt hlt
    · exact Nat.lt_succ_of_lt (h.born y c₁ hc₁)

/-- Making a callback keeps lists and owners in agreement. -/
theorem Attached.createCallback (h : k.Attached) (hb : k.IdsBelow) (name : String) (entry commonArgument : UInt32)
    (hbound : (k.createCallback name entry commonArgument).kernel.nextId ≠ k.nextId → k.nextId.toNat + 1 < 2 ^ 32) :
    (k.createCallback name entry commonArgument).kernel.Attached := by
  obtain ⟨e, he⟩ | ⟨t, -, ht, heq⟩ := createCallback_cases k name entry commonArgument
  · rw [he]
    exact h
  · rw [heq] at hbound ⊢
    refine h.attach hb (hbound ?_) ht rfl rfl
    show k.nextId + 1 ≠ k.nextId
    simp

/-- What deleting a callback does to callbacks and threads. -/
theorem deleteCallback_cases (k : Kernel) (id : ObjectId) :
    (k.objects.callback? id = none ∧ (k.deleteCallback id).kernel = k) ∨
      ∃ c, k.objects.callback? id = some c ∧ (k.deleteCallback id).kernel.nextId = k.nextId ∧
        (∀ x, (k.deleteCallback id).kernel.objects.callback? x = if id = x then none else k.objects.callback? x) ∧
        ∀ x, (k.deleteCallback id).kernel.thread? x = (k.thread? x).map fun t =>
          if c.owner = x then { t with callbacks := t.callbacks.filter (· != id) } else t := by
  unfold deleteCallback
  cases hc : k.objects.callback? id with
  | none => exact Or.inl ⟨rfl, rfl⟩
  | some c =>
    obtain rfl : c.id = id := ObjectTable.id_of_get? (ObjectTable.callback?_eq_some.mp hc)
    refine Or.inr ⟨c, rfl, ?_⟩
    dsimp only
    have hcallback : ∀ x, (k.forgetCallback c).objects.callback? x = k.objects.callback? x := by
      intro x
      unfold forgetCallback
      split
      · next t ht => exact callback?_putThread (thread?_id ht) _ (by rfl) x
      · rfl
    have hthread : ∀ x, (k.forgetCallback c).thread? x = (k.thread? x).map fun t =>
        if c.owner = x then { t with callbacks := t.callbacks.filter (· != c.id) } else t := by
      intro x
      unfold forgetCallback
      by_cases hx : c.owner = x
      · subst hx
        cases ht : k.thread? c.owner with
        | none => exact ht
        | some t =>
          rw [Option.map_some, if_pos rfl]
          have hid : t.id = c.owner := id_of_thread? ht
          exact (thread?_putThread ..).trans (if_pos hid)
      · simp only [if_neg hx, Option.map_id']
        split
        · next t ht => exact (thread?_putThread ..).trans (if_neg fun heq => hx ((id_of_thread? ht).symm.trans heq))
        · rfl
    have hnext : (k.forgetCallback c).nextId = k.nextId := by
      unfold forgetCallback
      split <;> rfl
    have hget : (k.forgetCallback c).objects.get? c.id = some (.callback c) :=
      ObjectTable.callback?_eq_some.mp ((hcallback c.id).trans hc)
    have hfind : (k.forgetCallback c).objects.find? .callback c.id = some (.callback c) :=
      ObjectTable.find?_eq_some.mpr ⟨hget, rfl⟩
    unfold unregister
    rw [hfind]
    refine ⟨hnext, fun x => ?_, fun x => ?_⟩
    · refine (callback?_erase _ c.id x).trans ?_
      rw [hcallback]
    · have herase : ((k.forgetCallback c).objects.erase c.id).thread? x = _ := ObjectTable.thread?_erase x
      refine herase.trans (Eq.trans ?_ (hthread x))
      split
      · next hx =>
        rw [← hx, thread?, ObjectTable.thread?_eq_bind, hget]
        rfl
      · rfl

/-- A deleted callback is taken off the list of its owner. -/
theorem Attached.deleteCallback (h : k.Attached) (id : ObjectId) : (k.deleteCallback id).kernel.Attached := by
  obtain ⟨-, heq⟩ | ⟨c, hc, hnext, hcallback, hthread⟩ := deleteCallback_cases k id
  · rw [heq]
    exact h
  · have hbefore : ∀ {x u}, (k.deleteCallback id).kernel.thread? x = some u → ∃ t, k.thread? x = some t ∧
        u = if c.owner = x then { t with callbacks := t.callbacks.filter (· != id) } else t := by
      intro x u hu
      rw [hthread] at hu
      obtain ⟨t, ht, rfl⟩ := Option.map_eq_some_iff.mp hu
      exact ⟨t, ht, rfl⟩
    constructor
    · intro x u hu
      obtain ⟨t, ht, rfl⟩ := hbefore hu
      split
      · exact (h.ascending x t ht).filter _
      · exact h.ascending x t ht
    · intro x u hu y hy
      obtain ⟨t, ht, rfl⟩ := hbefore hu
      have hy' : y ∈ t.callbacks ∧ id ≠ y := by
        split at hy
        · obtain ⟨hmem, hne⟩ := List.mem_filter.mp hy
          exact ⟨hmem, fun heq => bne_iff_ne.mp hne heq.symm⟩
        · next hx =>
          refine ⟨hy, ?_⟩
          rintro rfl
          obtain ⟨c₁, hc₁, howner⟩ := h.owned x t ht id hy
          exact hx (Option.some.inj (hc.symm.trans hc₁) ▸ howner)
      rw [hcallback, if_neg hy'.2]
      exact h.owned x t ht y hy'.1
    · intro y c₁ u hc₁ hu halive
      rw [hcallback] at hc₁
      obtain ⟨t, ht, rfl⟩ := hbefore hu
      split at hc₁
      · cases hc₁
      · next hne =>
        split at halive
        · next hx =>
          rw [if_pos hx]
          refine List.mem_filter.mpr ⟨h.listed y c₁ t hc₁ ht halive, bne_iff_ne.mpr fun heq => hne heq.symm⟩
        · next hx =>
          rw [if_neg hx]
          exact h.listed y c₁ t hc₁ ht halive
    · intro y c₁ hc₁
      rw [hcallback] at hc₁
      rw [hnext]
      split at hc₁
      · cases hc₁
      · exact h.born y c₁ hc₁

/-- What depends on objects alone, and is kept by deleting a callback and by dropping a request to run callbacks, is kept
by the return of a callback. -/
theorem finishCallback_preserves {P : Kernel → Prop} (hobjects : ∀ k k', P k → k'.objects = k.objects → P k')
    (hdelete : ∀ k id, P k → P (k.deleteCallback id).kernel)
    (hdrop : ∀ k t, P k → k.thread? t.id = some t → P (k.putThread { t with checksCallbacks := false }))
    (h : P k) (value : Int32) : P (k.finishCallback value).kernel := by
  have hretire : ∀ id, P (k.retireCallback id value) := by
    intro id
    have hdeleted := hdelete (k.note (.callbackRetired id value)) id (hobjects k _ h rfl)
    unfold retireCallback
    split
    · exact h
    · generalize (k.note (.callbackRetired id value)).deleteCallback id = r at hdeleted ⊢
      obtain ⟨result, k₁⟩ := r
      cases result with
      | ok => exact hdeleted
      | error e => exact hobjects k₁ _ hdeleted rfl
  unfold finishCallback
  split
  · exact h
  · next d hd =>
    have hretired := hretire d.callback
    generalize k.retireCallback d.callback value = k₁ at hretired ⊢
    dsimp only
    split
    · exact hobjects k₁ _ hretired rfl
    · next t ht =>
      have hsame : ((k₁.restoreContext d t).endDelivery d).objects = k₁.objects :=
        (Reloads.restoreContext k₁ d t).objects
      have hend := hobjects k₁ _ hretired hsame
      have htend : ((k₁.restoreContext d t).endDelivery d).thread? t.id = some t := by
        rw [thread?, hsame]
        exact thread?_id ht
      split
      · exact hend
      · exact hdrop _ t hend htend

/-- The return from a callback keeps lists and owners in agreement. -/
theorem Attached.finishCallback (h : k.Attached) (value : Int32) : (k.finishCallback value).kernel.Attached :=
  finishCallback_preserves (fun _ _ h heq => h.of_keepsLists (.of_objects heq)) (fun _ id h => h.deleteCallback id)
    (fun _ t h ht => h.of_keepsLists (.putThread ht { t with checksCallbacks := false } rfl (Or.inl rfl) id)) h value

/-! ### Threads that go away -/

/-- A removed callback is not registered, and others are as before. -/
theorem callback?_removeCallback (k : Kernel) (id x : ObjectId) :
    (k.removeCallback id).objects.callback? x = if id = x then none else k.objects.callback? x := by
  unfold removeCallback unregister
  cases hf : k.objects.find? .callback id with
  | none =>
    show k.objects.callback? x = _
    split
    · next hx =>
      refine Option.eq_none_iff_forall_ne_some.mpr fun c hc => ?_
      have hfound := ObjectTable.find?_eq_some.mpr ⟨ObjectTable.callback?_eq_some.mp (hx ▸ hc), rfl⟩
      cases hf.symm.trans hfound
    · rfl
  | some o => exact callback?_erase k id x

/-- Removed callbacks are not registered, and others are as before. -/
theorem callback?_removeCallbacks (k : Kernel) (ids : List ObjectId) (x : ObjectId) :
    (ids.foldl removeCallback k).objects.callback? x = if x ∈ ids then none else k.objects.callback? x := by
  induction ids generalizing k with
  | nil => rfl
  | cons id rest ih =>
    rw [List.foldl_cons, ih, callback?_removeCallback]
    by_cases hrest : x ∈ rest
    · rw [if_pos hrest, if_pos (List.mem_cons_of_mem _ hrest)]
    · rw [if_neg hrest]
      by_cases hx : id = x
      · rw [if_pos hx, if_pos (hx ▸ List.mem_cons_self ..)]
      · rw [if_neg hx, if_neg fun hmem => (List.mem_cons.mp hmem).elim (fun heq => hx heq.symm) hrest]

theorem nextId_removeCallbacks (k : Kernel) (ids : List ObjectId) : (ids.foldl removeCallback k).nextId = k.nextId := by
  induction ids generalizing k with
  | nil => rfl
  | cons id rest ih =>
    rw [List.foldl_cons, ih]
    unfold removeCallback
    obtain heq | ⟨o, -, -, -, heq⟩ := unregister_cases k .callback id <;> rw [heq] <;> rfl

/-- A thread that goes away with the callbacks on its list takes nobody else's. -/
theorem Attached.leave (h : k.Attached) (ht : k.thread? x = some t) (hnext : k'.nextId = k.nextId)
    (hthread : ∀ y, k'.thread? y = if x = y then none else k.thread? y)
    (hcallback : ∀ y, k'.objects.callback? y = if y ∈ t.callbacks then none else k.objects.callback? y) :
    k'.Attached := by
  have hthreads : ∀ {y u}, k'.thread? y = some u → x ≠ y ∧ k.thread? y = some u := by
    intro y u hu
    rw [hthread] at hu
    split at hu
    · cases hu
    · next hne => exact ⟨hne, hu⟩
  have hcallbacks : ∀ {y c}, k'.objects.callback? y = some c → k.objects.callback? y = some c := by
    intro y c hc
    rw [hcallback] at hc
    split at hc
    · cases hc
    · exact hc
  constructor
  · intro y u hu
    exact h.ascending y u (hthreads hu).2
  · intro y u hu id hid
    obtain ⟨hne, hu⟩ := hthreads hu
    obtain ⟨c, hc, howner⟩ := h.owned y u hu id hid
    refine ⟨c, ?_, howner⟩
    rw [hcallback, if_neg, hc]
    intro hmem
    obtain ⟨c₁, hc₁, howner₁⟩ := h.owned x t ht id hmem
    rw [Option.some.inj (hc₁.symm.trans hc), howner] at howner₁
    exact hne howner₁.symm
  · intro id c u hc hu halive
    exact h.listed id c u (hcallbacks hc) (hthreads hu).2 halive
  · intro id c hc
    rw [hnext]
    exact h.born id c (hcallbacks hc)

/-- **What becomes of a dead thread that is deleted**: it stays without what it held, or it goes with the callbacks on its
list. -/
theorem reclaim_cases (ht : k.thread? t.id = some t) : (k.reclaim t).kernel.objects = (k.putThread t.strip).objects ∨
    ((k.reclaim t).kernel.nextId = k.nextId ∧
      (∀ y, (k.reclaim t).kernel.thread? y = if t.id = y then none else k.thread? y) ∧
      ∀ y, (k.reclaim t).kernel.objects.callback? y = if y ∈ t.callbacks then none else k.objects.callback? y) := by
  have hclear : ((k.putThread t.strip).clearStack t).objects = (k.putThread t.strip).objects :=
    (Quiet.clearStack (k.putThread t.strip) t).objects
  unfold Kernel.reclaim
  dsimp only
  split
  · exact Or.inl hclear
  generalize ((k.putThread t.strip).clearStack t).config.threadPartition = partition
  have hfree := (sameObjects_freeBlocks ((k.putThread t.strip).clearStack t) partition
    (t.stack.toList ++ t.localStorage.toList)).objects.trans hclear
  generalize ((k.putThread t.strip).clearStack t).freeBlocks partition _ = r at hfree
  obtain ⟨e, -, heq, -⟩ | ⟨a, -, heq⟩ := r.kernel_andThen _ <;> rw [heq]
  · exact Or.inl hfree
  generalize hk₂ : t.callbacks.foldl removeCallback _ = k₂
  have hnext : k₂.nextId = k.nextId := by
    rw [← hk₂, nextId_removeCallbacks]
    have hnextId : r.kernel.objects.nextId = k.objects.nextId := by rw [hfree]; rfl
    refine Eq.trans ?_ hnextId
    split <;> rfl
  have hthread : ∀ y, k₂.thread? y = (k.putThread t.strip).thread? y := by
    intro y
    rw [← hk₂, thread?_removeCallbacks, thread?, thread?, ← hfree]
    split <;> rfl
  have hcallback : ∀ y, k₂.objects.callback? y = if y ∈ t.callbacks then none else k.objects.callback? y := by
    intro y
    rw [← hk₂, callback?_removeCallbacks, ← callback?_putThread ht t.strip rfl y, ← hfree]
    split
    · rfl
    · split <;> rfl
  have hun : k₂.unregister .thread t.id = _ :=
    unregister_thread (t := t.strip) ((hthread t.id).trans (thread?_putThread_self t.strip))
  rw [hun]
  refine Or.inr ⟨hnext, fun y => ?_, fun y => ?_⟩
  · have herase : (k₂.objects.erase t.id).thread? y = if t.id = y then none else k₂.thread? y :=
      ObjectTable.thread?_erase y
    refine herase.trans ?_
    by_cases hy : t.id = y
    · rw [if_pos hy, if_pos hy]
    · rw [if_neg hy, if_neg hy]
      exact (hthread y).trans ((thread?_putThread ..).trans (if_neg hy))
  · refine (callback?_erase k₂ t.id y).trans ?_
    split
    · next hy =>
      -- The id is that of a thread.
      rw [← hy]
      split
      · rfl
      · exact (callback?_eq_none_of_kind (ObjectTable.thread?_eq_some.mp ht) fun hk => by cases hk).symm
    · exact hcallback y

/-- The dead lose their lists, and their callbacks with them. -/
theorem Attached.reclaim (h : k.Attached) (ht : k.thread? t.id = some t) (hd : t.status.dead = true) :
    (k.reclaim t).kernel.Attached := by
  obtain hobjects | ⟨hnext, hthread, hcallback⟩ := reclaim_cases ht
  · have hstrip : KeepsCallbackLists k (k.putThread t.strip) := .putThread ht t.strip rfl (Or.inr ⟨rfl, hd⟩) id
    exact (h.of_keepsLists hstrip).of_keepsLists (.of_objects hobjects)
  · exact h.leave ht hnext hthread hcallback

/-- An operation that makes nothing hands out no id. -/
theorem nextId_of_creates? (hn : k.started.Nodup) (ho : o.creates? = none) : (k.after o).nextId = k.nextId := by
  obtain ⟨-, L, hmoves, -⟩ := moves_after k o hn
  refine hmoves.preserves (P := fun s => s.kernel.nextId = k.nextId) (fun l s s' hl hm hs => ?_) rfl
  obtain heq | ⟨x, rfl, -⟩ := hm.nextId
  · exact heq.trans hs
  · cases ho.symm.trans hl.created.2.2

/-- Ending a thread is an operation of its own. -/
theorem after_exitThread (ht : k.thread? t.id = some t) (exitCode : Int32) :
    k.after (.exitThread t.id exitCode) = k.exit t exitCode := by
  show (k.exitThread t.id exitCode).kernel = _
  rw [exitThread_eq ht]
  rfl

/-- The end of a thread keeps lists and owners in agreement. -/
theorem Attached.ends (h : k.Attached) (hk : k.Coherent ∧ k.IdsBelow) (hn : k.started.Nodup)
    (ht : k.thread? t.id = some t) (hends : EndsThread k t k') : k'.Attached := by
  have hexit : ∀ exitCode, (k.exit t exitCode).Attached := by
    intro exitCode
    rw [← after_exitThread ht]
    exact h.of_keepsLists (keepsCallbackLists_after hk hn (fun hne => absurd (nextId_of_creates? hn rfl) hne) rfl)
  cases hends with
  | refused => exact h
  | exit exitCode => exact hexit exitCode
  | delete exitCode =>
    obtain ⟨t', ht', hd⟩ := thread?_exit ht exitCode
    rw [← id_of_thread? ht', deleteThread_of_dead (thread?_id ht') hd]
    exact (hexit exitCode).reclaim (thread?_id ht') hd

/-- The operations that are about callbacks: calls of that name, the return from a callback, and those that delete a
thread. -/
inductive Attaches (k : Kernel) : Operation → Prop where
  | create (name : String) (entry commonArgument : UInt32) :
      Attaches k (.syscall (.createCallback name entry commonArgument))
  | delete (id : ObjectId) : Attaches k (.syscall (.deleteCallback id))
  | check : Attaches k (.syscall .checkCallback)
  | finish (value : Int32) : Attaches k (.finishCallback value)
  | ends {o : Operation} {t : Thread} (ht : k.thread? t.id = some t) (h : EndsThread k t (k.after o)) : Attaches k o
  /-- There is no thread to delete. -/
  | idle {o : Operation} (h : k.after o = k) : Attaches k o

/-- The operations that are about callbacks, one by one. -/
theorem attaches_cases (k : Kernel) (ho : o.attaches = true) : k.Attaches o := by
  have hdeletes : ∀ id, o.ends? k = some id → (k.thread? id = none → k.after o = k) → k.Attaches o := by
    intro id hends hidle
    cases ht : k.thread? id with
    | none => exact .idle (hidle ht)
    | some t =>
      obtain rfl := id_of_thread? ht
      exact .ends ht (endsThread_after ht hends)
  cases o with
  | deleteThread id =>
    refine hdeletes id rfl fun hnone => ?_
    show (k.deleteThread id).kernel = k
    unfold deleteThread
    rw [hnone]
    rfl
  | finishCallback value => exact .finish value
  | syscall call =>
    cases call with
    | createCallback name entry commonArgument => exact .create name entry commonArgument
    | deleteCallback id => exact .delete id
    | checkCallback => exact .check
    | deleteThread id =>
      refine hdeletes id rfl fun hnone => ?_
      show (k.deleteDormant id).kernel = k
      unfold deleteDormant
      rw [hnone]
      split <;> rfl
    | exitDeleteThread exitCode =>
      cases hcurrent : k.current with
      | none =>
        refine .idle ?_
        show ((k.exitCurrent exitCode).andThen fun id k => k.deleteThread id).kernel = k
        unfold exitCurrent
        rw [hcurrent]
        rfl
      | some id =>
        refine hdeletes id hcurrent fun hnone => ?_
        show ((k.exitCurrent exitCode).andThen fun id k => k.deleteThread id).kernel = k
        unfold exitCurrent exitThread
        rw [hcurrent]
        dsimp only
        rw [hnone]
        rfl
    | terminateDeleteThread id =>
      refine hdeletes id rfl fun hnone => ?_
      show ((k.onOther id terminateThread).andThen fun _ k => k.deleteThread id).kernel = k
      unfold onOther terminateThread
      rw [hnone]
      split
      · rfl
      · split <;> rfl
    | _ => cases ho
  | _ => cases ho

/-- **Every operation keeps lists and owners in agreement.** -/
theorem Attached.after (h : k.Attached) (hk : k.Coherent ∧ k.IdsBelow) (hn : k.started.Nodup)
    (hbound : k.SparesLastId o) : (k.after o).Attached := by
  cases ho : o.attaches with
  | false => exact h.of_keepsLists (keepsCallbackLists_after hk hn hbound ho)
  | true =>
    cases attaches_cases k ho with
    | create name entry commonArgument => exact h.createCallback hk.2 name entry commonArgument hbound
    | delete id => exact h.deleteCallback id
    | check => exact h.checkCallbacks
    | finish value => exact h.finishCallback value
    | ends ht hends => exact h.ends hk hn ht hends
    | idle hidle =>
      rw [hidle]
      exact h

/-- **In every reachable state the lists of callbacks and the owners agree.** -/
theorem attached_run (config : KernelConfig) (memory : Memory) (operations : List Operation)
    (hids : (Kernel.new config memory).handedOut operations < 2 ^ 32 - 1) :
    ((Kernel.new config memory).run operations).Attached := by
  have hthread := thread?_new config memory
  have hcallback : ∀ x, (Kernel.new config memory).objects.callback? x = none := fun x =>
    callback?_eq_none_of_get? (get?_new config memory x)
  have hnew : (Kernel.new config memory).Attached := by
    refine ⟨fun x t ht => ?_, fun x t ht => ?_, fun x c t hc => ?_, fun x c hc => ?_⟩
    · cases (hthread x).symm.trans ht
    · cases (hthread x).symm.trans ht
    · cases (hcallback x).symm.trans hc
    · cases (hcallback x).symm.trans hc
  exact (reachable_keeps hids hnew fun _ _ hc hn hbound h => h.after hc hn hbound).2

end Kernel
end GuestKernel
