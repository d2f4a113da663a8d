/-
# What happens to objects other than threads

A move of the kernel leaves an object that is no thread as it is, changes it by a call on it, puts a thread into its
queues, or takes one out that gives up (`Object.Step`). Nothing else happens to it, whatever the move is about
(`Move.object`).

What all four keep of an object, and every new object has, therefore holds of every object in every reachable state
(`objects_run`).

Source: specification, 3.
-/

import GuestKernel.Proofs.OperationMoves

namespace GuestKernel

/-- One move as seen by an object that is no thread. -/
inductive Object.Step (l : Label) : Object → Object → Prop where
  | same (o : Object) : Step l o o
  | change {o o' : Object} {off : List ThreadId} (hl : l = .change o o') (h : o.Change o' off) : Step l o o'
  | enqueue {o o' : Object} {id : ThreadId} {priority : UInt32} {w : Wait} (hl : l = .enqueue o o')
      (h : o.Enqueues id priority w o') : Step l o o'
  /-- A queued thread times out or dies. -/
  | leave {o : Object} {id : ThreadId} (h : id ∈ o.waiting) : Step l o (o.removeWaiter id)

theorem Object.Step.kind_eq {l : Label} {o o' : Object} (h : o.Step l o') : o'.kind = o.kind := by
  cases h with
  | same => rfl
  | change _ h => exact h.kind_eq
  | enqueue _ h => exact h.kind_eq
  | leave => exact Object.kind_removeWaiter ..

/-- The object after threads have left its queues one after another. -/
def Object.without (o : Object) (ids : List ThreadId) : Object := ids.foldl Object.removeWaiter o

/-- What neither changes an object nor queues anybody on it at most takes a waiter off. -/
theorem Object.Step.without {l : Label} {o o' : Object} (h : o.Step l o') (hl : ¬ l.Changes o'.kind o'.id) :
    ∃ ids, o' = o.without ids := by
  cases h with
  | same => exact ⟨[], rfl⟩
  | change hlabel hc =>
    subst hlabel
    exact absurd ⟨hc.kind_eq.symm, hc.id_eq.symm⟩ hl
  | enqueue hlabel hq =>
    subst hlabel
    exact absurd ⟨hq.kind_eq.symm, hq.id_eq.symm⟩ hl
  | @leave id => exact ⟨[id], rfl⟩

namespace Kernel

variable {k : Kernel} {t : Thread} {x : ObjectId} {o' : Object}

/-- Leaving a queue does not depend on the processor. -/
theorem detach_current (k : Kernel) (id : ThreadId) (w : Wait) (current : Option ThreadId) :
    ({ k with current } : Kernel).detach id w = { k.detach id w with current } := by
  unfold Kernel.detach
  by_cases hkind : w.kind = .sleep ∨ w.kind = .delay
  · rw [if_pos hkind, if_pos hkind]
  · rw [if_neg hkind, if_neg hkind]
    dsimp only
    cases k.objects.get? w.handle with
    | none => rfl
    | some o =>
      dsimp only
      by_cases hc : o.waiting.contains id = true
      · rw [if_pos hc, if_pos hc]
        rfl
      · rw [if_neg hc, if_neg hc]
        rfl

/-- The kernel in which a thread is dead, and not ready nor on the processor. -/
def fell (k : Kernel) (t : Thread) (exitCode : Int32) : Kernel :=
  { k.putThread (t.die exitCode) with
    ready := k.ready.remove t.id, current := if k.current = some t.id then none else k.current }

theorem onlyThreads_fell (ht : k.thread? t.id = some t) (exitCode : Int32) : OnlyThreads k (k.fell t exitCode) :=
  { onlyThreads_putThread (t.die exitCode) ht rfl rfl with }

/-- Of what a dying thread leaves, the queue it stands in comes last. -/
theorem retire_eq (k : Kernel) (t : Thread) (exitCode : Int32) :
    (t.wait = none ∧ k.retire t exitCode = k.fell t exitCode) ∨
      ∃ w, t.wait = some w ∧ k.retire t exitCode = (k.fell t exitCode).detach t.id w := by
  have hclear : ∀ k₁ : Kernel, (if k₁.current = some t.id then { k₁ with current := none } else k₁) =
      { k₁ with current := if k₁.current = some t.id then none else k₁.current } := by
    intro k₁
    split <;> rfl
  unfold Kernel.retire
  dsimp only
  cases hw : t.wait with
  | none => exact Or.inl ⟨rfl, hclear _⟩
  | some w =>
    refine Or.inr ⟨w, rfl, (hclear _).trans ?_⟩
    have hcurrent : ∀ k₁ : Kernel, (k₁.detach t.id w).current = k₁.current := by
      intro k₁
      obtain h | ⟨e, -, h⟩ | ⟨o, -, -, -, -, h⟩ := detach_cases k₁ t.id w <;> rw [h] <;> rfl
    rw [hcurrent, ← detach_current]
    rfl

/-- Leaving a queue, as seen by the object. -/
theorem object_detach (l : Label) (id : ThreadId) (w : Wait)
    (h : (k.detach id w).objects.get? x = some o') : ∃ o, k.objects.get? x = some o ∧ o.Step l o' := by
  obtain heq | ⟨e, -, heq⟩ | ⟨o, ho, hmem, -, -, heq⟩ := detach_cases k id w <;> rw [heq] at h
  · exact ⟨o', h, .same o'⟩
  · exact ⟨o', h, .same o'⟩
  · have hget : (k.put (o.removeWaiter id)).objects.get? x =
        if (o.removeWaiter id).id = x then some (o.removeWaiter id) else k.objects.get? x := ObjectTable.get?_put ..
    rw [hget, Object.id_removeWaiter, ObjectTable.id_of_get? ho] at h
    split at h
    · next hx =>
      cases h
      exact ⟨o, hx ▸ ho, .leave (List.contains_iff_mem.mp hmem)⟩
    · exact ⟨o', h, .same o'⟩

/-- A change of one object, as seen by all. -/
theorem object_put {l : Label} {o₁ o₂ : Object} (ho : k.objects.get? o₁.id = some o₁) (hid : o₂.id = o₁.id)
    (hstep : o₁.Step l o₂) (h : (k.put o₂).objects.get? x = some o') :
    ∃ o, k.objects.get? x = some o ∧ o.Step l o' := by
  have hget : (k.put o₂).objects.get? x = if o₂.id = x then some o₂ else k.objects.get? x := ObjectTable.get?_put ..
  rw [hget] at h
  split at h
  · next hx =>
    cases h
    exact ⟨o₁, hx ▸ hid ▸ ho, hstep⟩
  · exact ⟨o', h, .same o'⟩

end Kernel

/-- **What a move does to an object that is no thread**, unless it makes it. -/
theorem Move.object {l : Label} {s s' : Stage} (hm : Move l s s') {x : ObjectId} {o' : Object}
    (h : s'.kernel.objects.get? x = some o') (hk : o'.kind ≠ .thread) :
    (∃ o, s.kernel.objects.get? x = some o ∧ o.Step l o') ∨ (l = .create o' ∧ o'.IsNew ∧ o'.id = s.kernel.nextId) := by
  have honly := hm.onlyThreads
  cases hm with
  | reserve hq => exact Or.inl ⟨o', hq.objects ▸ h, .same o'⟩
  | @create k L o hid hnew =>
    have hget : (k.objects.skipId.put o).get? x = if o.id = x then some o else k.objects.get? x :=
      ObjectTable.get?_put ..
    replace h : (k.objects.skipId.put o).get? x = some o' := h
    rw [hget] at h
    split at h
    · cases h
      exact Or.inr ⟨rfl, hnew, hid⟩
    · exact Or.inl ⟨o', h, .same o'⟩
  | @erase k o ho hkind =>
    replace h : (k.objects.erase o.id).get? x = some o' := h
    rw [ObjectTable.get?_erase] at h
    split at h
    · cases h
    · exact Or.inl ⟨o', h, .same o'⟩
  | change ho hc => exact Or.inl (Kernel.object_put ho hc.id_eq (.change rfl hc) h)
  | enqueue ho ht hw hq => exact Or.inl (Kernel.object_put ho hq.id_eq (.enqueue rfl hq) h)
  | @launch k L t registers ht hs =>
    replace h : ((k.allocateContext t.entry registers).launch t k.contexts.freshId).objects.get? x = some o' := h
    rw [Kernel.objects_launch] at h
    have hput := Kernel.onlyThreads_putThread
      { t with context := some k.contexts.freshId, status := .onlyReady } ht rfl rfl
    exact Or.inl ⟨o', hput.get?_eq h hk, .same o'⟩
  | detach => exact Or.inl (Kernel.object_detach _ _ _ h)
  | @retire k t exitCode ht =>
    have hfell := Kernel.onlyThreads_fell ht exitCode
    replace h : (k.retire t exitCode).objects.get? x = some o' := h
    obtain ⟨-, heq⟩ | ⟨w, -, heq⟩ := Kernel.retire_eq k t exitCode <;> rw [heq] at h
    · exact Or.inl ⟨o', hfell.get?_eq h hk, .same o'⟩
    · obtain ⟨o, ho, hstep⟩ := Kernel.object_detach (.retire t.id exitCode) t.id w h
      refine Or.inl ⟨o, hfell.get?_eq ho ?_, hstep⟩
      rw [← hstep.kind_eq]
      exact hk
  | @strip k L t contexts ht =>
    have hget : (k.putThread t.strip).objects.get? x = if t.id = x then some (.thread t.strip) else k.objects.get? x :=
      ObjectTable.get?_put ..
    replace h := hget.symm.trans h
    split at h
    · cases h
      exact absurd rfl hk
    · exact Or.inl ⟨o', h, .same o'⟩
  | @bury k L t ht =>
    replace h : (k.objects.erase t.id).get? x = some o' := h
    rw [ObjectTable.get?_erase] at h
    split at h
    · cases h
    · exact Or.inl ⟨o', h, .same o'⟩
  | _ => exact Or.inl ⟨o', (honly trivial).get?_eq h hk, .same o'⟩

namespace Kernel

variable {k : Kernel} {op : Operation} {x : ObjectId} {o' : Object}

/-- **What an operation does to one object**, other than a thread. A condition holds of the object afterwards if it holds
of the object before, or of the one that the operation makes under the id, and the steps that the operation permits keep
it; the kind of the object is the same throughout. -/
theorem object_after (hn : k.started.Nodup)
    (h : (k.after op).objects.get? x = some o') (hk : o'.kind ≠ .thread) {R : Object → Prop}
    (hold : ∀ o, k.objects.get? x = some o → o.kind = o'.kind → R o)
    (hmade : ∀ o, o.IsNew → o.kind = o'.kind → x = k.nextId → op.creates? = some o.kind → R o)
    (hstep : ∀ l o₁ o₂, op.Permits k l → o₂.kind = o'.kind → o₂.id = x → o₁.Step l o₂ → R o₁ → R o₂) : R o' := by
  obtain ⟨-, L, hmoves, -⟩ := moves_after k op hn
  refine hmoves.preserves (P := fun s => ∀ o₂, s.kernel.objects.get? x = some o₂ → o₂.kind = o'.kind → R o₂) ?_ hold o' h rfl
  intro l s s' hl hm hs o₂ ho₂ hkind
  have hid := ObjectTable.id_of_get? ho₂
  obtain ⟨o₁, ho₁, hos⟩ | ⟨rfl, hisNew, -⟩ := hm.object ho₂ (hkind ▸ hk)
  · exact hstep l o₁ o₂ hl hkind hid hos (hs o₁ ho₁ (hos.kind_eq.symm.trans hkind))
  · obtain ⟨hnext, -, hcreates⟩ := hl.created
    exact hmade o₂ hisNew hkind (hid.symm.trans hnext) hcreates

/-- No operation makes an object under an id that was handed out before. -/
theorem kind_of_after (hn : k.started.Nodup) (hx : x ≠ k.nextId)
    (h : (k.after op).objects.get? x = some o') (hk : o'.kind ≠ .thread) :
    ∃ o, k.objects.get? x = some o ∧ o.kind = o'.kind :=
  object_after hn h hk (R := fun _ => ∃ o, k.objects.get? x = some o ∧ o.kind = o'.kind) (fun o ho hkind => ⟨o, ho, hkind⟩)
    (fun _ _ _ hnext => absurd hnext hx) fun _ _ _ _ _ _ _ h => h

/-- **An operation on other objects at most takes waiters off an object**, one whose id was handed out before. -/
theorem without_after (hn : k.started.Nodup) (hx : x ≠ k.nextId)
    (h : (k.after op).objects.get? x = some o') (hthread : o'.kind ≠ .thread) (hcallback : o'.kind ≠ .callback)
    (hop : op.object? ≠ some (o'.kind, x)) : ∃ o ids, k.objects.get? x = some o ∧ o' = o.without ids := by
  refine object_after hn h hthread (R := fun o₂ => ∃ o ids, k.objects.get? x = some o ∧ o₂ = o.without ids)
    (fun o ho _ => ⟨o, [], ho, rfl⟩) (fun _ _ _ hnext => absurd hnext hx) ?_
  rintro l o₁ o₂ hl hkind hid hstep ⟨o, ids, ho, rfl⟩
  have hspares : ¬ l.Changes o₂.kind o₂.id := by
    rw [hkind, hid]
    exact hl.not_changes hop hthread hcallback
  obtain ⟨more, rfl⟩ := hstep.without hspares
  refine ⟨o, ids ++ more, ho, ?_⟩
  unfold Object.without
  rw [List.foldl_append]

/-- All objects other than threads satisfy a condition. -/
def Objects (I : Object → Prop) (k : Kernel) : Prop := ∀ x o, k.objects.get? x = some o → o.kind ≠ .thread → I o

variable {I : Object → Prop} (hnew : ∀ o, o.IsNew → o.kind ≠ .thread → I o)
  (hstep : ∀ l o o', o.kind ≠ .thread → o.Step l o' → I o → I o')
include hnew hstep

/-- What holds of new objects and is kept by steps is kept by operations. -/
theorem objects_after (op : Operation) (hn : k.started.Nodup) (h : k.Objects I) : (k.after op).Objects I := by
  intro x o' ho' hk
  refine object_after hn ho' hk (fun o ho hkind => h x o ho (hkind ▸ hk))
    (fun o hisNew hkind _ _ => hnew o hisNew (hkind ▸ hk)) ?_
  intro l o₁ o₂ _ hkind _ hos
  exact hstep l o₁ o₂ (hos.kind_eq ▸ hkind ▸ hk) hos

/-- **What holds of new objects and is kept by every step holds of every object in every reachable state.** -/
theorem objects_run (config : KernelConfig) (memory : Memory) (operations : List Operation) :
    ((Kernel.new config memory).run operations).Objects I := by
  refine run_keeps (fun k o hn h => objects_after hnew hstep o hn h) operations (nodup_started_new config memory) ?_
  intro x o ho
  rw [get?_new] at ho
  cases ho

end Kernel
end GuestKernel
