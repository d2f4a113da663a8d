/-
# What operations leave alone of a thread

A thread's priority, its saved wakeups, its callbacks and its request to run them belong to the thread alone, and only a
few operations change them.

| what | changes by |
| --- | --- |
| priority | a call that ranks the thread (`Operation.ranks?`) |
| wakeups | a sleep of the thread, a wakeup for it, a call that drops them (`Operation.counts?`) |
| callbacks, request to run them | calls about callbacks, and the end of a callback (`Operation.attaches`) |

A thread that has just been made has none of them but its priority (`new_after`).

Source: specification, 4.2.
-/

import GuestKernel.Proofs.ThreadSteps

namespace GuestKernel

namespace Operation.Permits

variable {o : Operation} {k : Kernel} {id : ThreadId}

/-- An operation that edits a thread changes its wakeups, or is about callbacks and leaves the wakeups alone. -/
theorem edit {t t' : Thread} (h : o.Permits k (.edit t t')) :
    (o.counts? k = some t.id ∧ t'.callbacks = t.callbacks ∧ t'.checksCallbacks = t.checksCallbacks) ∨
      (o.attaches = true ∧ t'.wakeups = t.wakeups) := by
  cases h with
  | touch _ _ hv =>
    rcases hv trivial with ⟨_, -, ⟨⟩⟩ | ⟨x, hx, rfl, hsame⟩ | hattach | ⟨_, _, -, ⟨⟩⟩ | ⟨-, ⟨⟩⟩
    · exact Or.inl ⟨hx, hsame⟩
    · exact Or.inr hattach

theorem reprioritise {priority : UInt32} (h : o.Permits k (.reprioritise id priority)) : o.ranks? k = some id := by
  cases h with
  | touch _ _ hv =>
    rcases hv trivial with ⟨x, hx, rfl⟩ | ⟨_, -, ⟨⟩⟩ | ⟨-, ⟨⟩⟩ | ⟨_, _, -, ⟨⟩⟩ | ⟨-, ⟨⟩⟩
    exact hx

/-- An operation that leaves a thread asleep is about its wakeups. -/
theorem doze {w : Wait} (h : o.Permits k (.doze id w)) (hw : w.kind = .sleep) : o.counts? k = some id := by
  cases h with
  | touch _ _ hv =>
    rcases hv hw with ⟨_, -, ⟨⟩⟩ | ⟨x, hx, rfl, -⟩ | ⟨-, ⟨⟩⟩ | ⟨_, _, -, ⟨⟩⟩ | ⟨-, ⟨⟩⟩
    exact hx

end Operation.Permits

/-- A call that makes a thread changes no other. -/
theorem Operation.of_creates_thread {o : Operation} (h : o.creates? = some .thread) (k : Kernel) :
    o.counts? k = none ∧ o.attaches = false := by
  cases o with
  | syscall call => cases call <;> first | exact ⟨rfl, rfl⟩ | cases h
  | _ => cases h

namespace Thread.Step

variable {l : Label} {t t' : Thread}

/-- Only a change of priority changes a priority. -/
theorem priority_eq (h : t.Step l t') : t'.priority = t.priority ∨ ∃ priority, l = .reprioritise t.id priority := by
  cases h with
  | same | joined | park | wake | launch | die | strip => exact Or.inl rfl
  | edit hlife => exact Or.inl (by rw [hlife])
  | arrange _ _ _ _ hp => exact hp.imp_right fun hl => ⟨_, hl⟩

theorem wakeups_eq (h : t.Step l t') : t'.wakeups = t.wakeups ∨ l = .edit t t' := by
  cases h with
  | same | joined | arrange | park | wake | launch | die | strip => exact Or.inl rfl
  | edit _ hl => exact Or.inr hl

/-- The callbacks of a thread are edited, or go with what it held when it has died. -/
theorem callbacks_eq (h : t.Step l t') :
    (t'.checksCallbacks = t.checksCallbacks ∧
      (t'.callbacks = t.callbacks ∨ t'.callbacks = [] ∧ t'.status.dead = true)) ∨ l = .edit t t' := by
  cases h with
  | same | joined | arrange | park | wake | launch | die => exact Or.inl ⟨rfl, Or.inl rfl⟩
  | strip _ hs => exact Or.inl ⟨rfl, Or.inr ⟨rfl, hs⟩⟩
  | edit _ hl => exact Or.inr hl

end Thread.Step

namespace Kernel

variable {k : Kernel} {o : Operation} {x : ThreadId} {t t' : Thread}

/-- **The priority of a thread changes only by a call that ranks it.** -/
theorem priority_after (h : k.Coherent ∧ k.IdsBelow) (hn : k.started.Nodup) (ho : o.ranks? k ≠ some x)
    (ht : k.thread? x = some t) (ht' : (k.after o).thread? x = some t') : t'.priority = t.priority := by
  refine kept_after (Q := fun u => u.priority = t.priority) h hn (fun l u u' hl hid hstep hu => ?_) ht rfl ht'
  obtain heq | ⟨priority, rfl⟩ := hstep.priority_eq
  · exact heq.trans hu
  · exact absurd (hid ▸ hl.reprioritise) ho

/-- **The saved wakeups of a thread change only by a sleep, a wakeup or a call that drops them.** -/
theorem wakeups_after (h : k.Coherent ∧ k.IdsBelow) (hn : k.started.Nodup) (ho : o.counts? k ≠ some x)
    (ht : k.thread? x = some t) (ht' : (k.after o).thread? x = some t') : t'.wakeups = t.wakeups := by
  refine kept_after (Q := fun u => u.wakeups = t.wakeups) h hn (fun l u u' hl hid hstep hu => ?_) ht rfl ht'
  obtain heq | rfl := hstep.wakeups_eq
  · exact heq.trans hu
  · rcases hl.edit with ⟨hcounts, -⟩ | ⟨-, heq⟩
    · exact absurd (hid ▸ hcounts) ho
    · exact heq.trans hu

/-- **The callbacks of a thread change only by calls about callbacks**, and when it loses what it held after its
death. -/
theorem callbacks_after (h : k.Coherent ∧ k.IdsBelow) (hn : k.started.Nodup) (ho : o.attaches = false)
    (ht : k.thread? x = some t) (ht' : (k.after o).thread? x = some t') :
    t'.checksCallbacks = t.checksCallbacks ∧
      (t'.callbacks = t.callbacks ∨ t'.callbacks = [] ∧ t'.status.dead = true) := by
  refine kept_after (Q := fun u => u.checksCallbacks = t.checksCallbacks ∧
    (u.callbacks = t.callbacks ∨ u.callbacks = [] ∧ u.status.dead = true)) h hn
    (fun l u u' hl _ hstep hu => ?_) ht ⟨rfl, Or.inl rfl⟩ ht'
  have hdead : u.callbacks = [] ∧ u.status.dead = true → u'.callbacks = u.callbacks →
      u'.callbacks = [] ∧ u'.status.dead = true :=
    fun hgone heq => ⟨heq.trans hgone.1, (hstep.stays_dead hgone.2).1⟩
  obtain ⟨hcheck, hlist⟩ | rfl := hstep.callbacks_eq
  · refine ⟨hcheck.trans hu.1, ?_⟩
    rcases hlist with heq | hgone
    · exact hu.2.imp heq.trans fun hgone => hdead hgone heq
    · exact Or.inr hgone
  · rcases hl.edit with ⟨-, hlist, hcheck⟩ | ⟨hattaches, -⟩
    · exact ⟨hcheck.trans hu.1, hu.2.imp hlist.trans fun hgone => hdead hgone hlist⟩
    · cases ho.symm.trans hattaches

/-- **A thread that an operation makes** takes the next id, and has no wakeups and no callbacks. -/
theorem new_after (h : k.Coherent ∧ k.IdsBelow) (hn : k.started.Nodup) (hnone : k.thread? x = none)
    (ht' : (k.after o).thread? x = some t') :
    x = k.nextId ∧ t'.wakeups = 0 ∧ t'.callbacks = [] ∧ t'.checksCallbacks = false := by
  have hafter := staged_after (o := o) (P := fun s => ∀ t', s.kernel.thread? x = some t' →
    o.creates? = some .thread ∧ x = k.nextId ∧ t'.wakeups = 0 ∧ t'.callbacks = [] ∧ t'.checksCallbacks = false) h hn
    (fun l s s' hl hc _ hm hs u' hu' => ?_) fun u hu => by rw [hnone] at hu; cases hu
  · obtain ⟨-, L, hnew, -⟩ := hafter
    exact (hnew t' ht').2
  · obtain ⟨u, hu, hstep⟩ | ⟨rfl, hisNew, -⟩ := hm.thread hc hu'
    · obtain ⟨hcreates, hx, hwakeups, hcallbacks, hcheck⟩ := hs u hu
      obtain ⟨hcounts, hattaches⟩ := Operation.of_creates_thread hcreates k
      have hedit : l ≠ .edit u u' := by
        rintro rfl
        rcases hl.edit with ⟨hyes, -⟩ | ⟨hyes, -⟩
        · cases hcounts.symm.trans hyes
        · cases hattaches.symm.trans hyes
      obtain ⟨hcheck', hlist⟩ := hstep.callbacks_eq.resolve_right hedit
      refine ⟨hcreates, hx, (hstep.wakeups_eq.resolve_right hedit).trans hwakeups, ?_, hcheck'.trans hcheck⟩
      exact hlist.elim (fun heq => heq.trans hcallbacks) fun hgone => hgone.1
    · obtain ⟨hid, -, hkind⟩ := hl.created
      obtain ⟨-, -, -, -, hcallbacks, hwakeups, hcheck, -⟩ := hisNew
      exact ⟨hkind, (id_of_thread? hu').symm.trans hid, hwakeups, hcallbacks, hcheck⟩

end Kernel
end GuestKernel
