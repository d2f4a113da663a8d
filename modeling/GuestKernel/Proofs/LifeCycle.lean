/-
# The life of a thread

A thread is made stopped, is started once, and from then on is ready, running, waiting, on hold, or waiting on hold,
until it dies. `Transition` lists the ways in which one operation may change its status, each with the operation that
does it, and `transition_after` says that there are no others.

| from | to | by |
| --- | --- | --- |
| stopped | ready | the start of the thread |
| ready, running | running, ready | dispatch |
| running | waiting | a call of the thread that blocks |
| waiting, waiting on hold | ready, on hold | the end of its wait |
| ready, waiting | on hold, waiting on hold | its suspension |
| on hold, waiting on hold | ready, waiting | the end of its suspension |
| any | dead | its exit, its termination or its deletion |

Operations fall into four groups. Starting, suspending and resuming a thread are one move, dispatch is a few moves by
which the processor changes hands, a call that blocks ends with the move that parks the running thread, and all others
at most end waits and lives.

A dead thread takes part in nothing (`AtRest`), and stays dead with the same exit code until it is deleted.

Source: specification, 4.2.
-/

import GuestKernel.Proofs.DispatchOrder
import GuestKernel.Proofs.Joins

namespace GuestKernel

/-- The change of a thread from `t` to `t'` by an operation is one of the kinds that change its status, or leaves it. -/
inductive Thread.Transition (k : Kernel) (o : Operation) (t t' : Thread) : Prop where
  | stay (h : t'.status = t.status)
  | start (ho : o.starts? = some t.id) (h : t.status = .onlyStopped ∧ t'.status = .onlyReady)
  | run (ho : o = .dispatch) (h : t.status = .onlyReady ∧ t'.status = .onlyRunning)
  | preempt (ho : o = .dispatch) (h : t.status = .onlyRunning ∧ t'.status = .onlyReady)
  | block (ho : o.mayBlock = true) (hc : k.current = some t.id)
      (h : t.status = .onlyRunning ∧ t'.status = .onlyWaiting)
  | wake (hw : t.wait.isSome = true) (hw' : t'.wait = none)
      (h : t.status = .onlyWaiting ∧ t'.status = .onlyReady ∨
        t.status = .waitSuspended ∧ t'.status = .onlySuspended)
  | suspend (ho : o.suspends? = some t.id)
      (h : t.status = .onlyReady ∧ t'.status = .onlySuspended ∨
        t.status = .onlyWaiting ∧ t'.status = .waitSuspended)
  | resume (ho : o.resumes? = some t.id)
      (h : t.status = .onlySuspended ∧ t'.status = .onlyReady ∨
        t.status = .waitSuspended ∧ t'.status = .onlyWaiting)
  | die (ho : o.ends? k = some t.id) (h : t'.status = .onlyDead)

/-- The label of a move that dispatch may make. -/
def Label.InDispatch : Label → Prop
  | quiet | change _ _ | preempt | run | interrupt _ => True
  | _ => False

/-- The label of a move that ends a thread as the operation is to, or takes one off a queue. -/
def Label.EndsAny (l : Label) (k : Kernel) (o : Operation) : Prop :=
  (∃ id exitCode, l = .retire id exitCode ∧ o.ends? k = some id) ∨ ∃ id w, l = .detach id w

namespace Thread

variable {k : Kernel} {o : Operation} {l : Label} {t t₁ t₂ t' : Thread}

namespace Transition

theorem congr (h : t.Transition k o t₁) (hs : t'.status = t₁.status) (hw : t'.wait = t₁.wait) :
    t.Transition k o t' := by
  cases h with
  | stay h => exact .stay (hs.trans h)
  | start ho h => exact .start ho (hs ▸ h)
  | run ho h => exact .run ho (hs ▸ h)
  | preempt ho h => exact .preempt ho (hs ▸ h)
  | block ho hc h => exact .block ho hc (hs ▸ h)
  | wake hwait hnone h => exact .wake hwait (hw.trans hnone) (hs ▸ h)
  | suspend ho h => exact .suspend ho (hs ▸ h)
  | resume ho h => exact .resume ho (hs ▸ h)
  | die ho h => exact .die ho (hs.trans h)

/-- **One move makes a transition**, if it schedules only as the operation is to. -/
theorem of_step (h : t.Step l t') (hsound : t.Sound) (hl : l.Schedules → o.Arranges k l)
    (hrun : ∀ w, l = .park t.id w → t.status = .onlyRunning) : t.Transition k o t' := by
  cases h with
  | same | joined | strip => exact .stay rfl
  | edit hlife => exact .stay (by rw [hlife])
  | arrange _ _ _ hstatus =>
    rcases hstatus with hstatus | hturns
    · exact .stay hstatus
    · have harranges := hl hturns.schedules
      cases l with
      | preempt => exact .preempt harranges hturns
      | run | interrupt => exact .run harranges hturns
      | hold => exact .suspend (hturns.1 ▸ harranges) hturns.2
      | unhold => exact .resume (hturns.1 ▸ harranges) hturns.2
      | _ => exact absurd hturns fun h => h
  | park hpark =>
    have hs := hrun _ hpark
    subst hpark
    obtain ⟨ho, hc⟩ := hl trivial
    exact .block ho hc ⟨hs, congrArg ThreadStatus.park hs⟩
  | wake _ hw =>
    have hwait : t.wait.isSome = true := by rw [hw]; rfl
    exact .wake hwait rfl (hsound.unparks hwait)
  | launch hlaunch hs =>
    subst hlaunch
    exact .start (hl trivial) ⟨hs, rfl⟩
  | die hretire =>
    subst hretire
    exact .die (hl trivial) rfl

end Transition

/-! ### Operations that at most end waits and lives -/

/-- The thread has its status and its wait, or the wait is over, or the operation has ended the thread. -/
def WaitOrLifeEnds (k : Kernel) (o : Operation) (t t' : Thread) : Prop :=
  (t'.status = t.status ∧ t'.wait = t.wait) ∨
    (t.wait.isSome = true ∧ t'.wait = none ∧ t'.status = t.status.unpark) ∨
    (o.ends? k = some t.id ∧ t'.status = .onlyDead ∧ t'.wait = none)

theorem WaitOrLifeEnds.transition (h : t.WaitOrLifeEnds k o t') (hsound : t.Sound) : t.Transition k o t' := by
  rcases h with ⟨hs, -⟩ | ⟨hw, hw', hs⟩ | ⟨ho, hs, -⟩
  · exact .stay hs
  · exact .wake hw hw' (hs ▸ hsound.unparks hw)
  · exact .die ho hs

/-- A step ends the wait or the life of a thread, or does neither. -/
theorem WaitOrLifeEnds.step (h : t.WaitOrLifeEnds k o t₁) (hid : t₁.id = t.id) (hstep : t₁.Step l t₂)
    (hl : l.Schedules → l.EndsAny k o) : t.WaitOrLifeEnds k o t₂ := by
  obtain ⟨hs, hw⟩ | ⟨⟨w, hw⟩, result, -, rfl⟩ | ⟨exitCode, rfl, rfl⟩ := hstep.rests_or_dies fun hschedules =>
    (hl hschedules).imp_left fun ⟨id, exitCode, heq, _⟩ => ⟨id, exitCode, heq⟩
  · unfold WaitOrLifeEnds
    rw [hs, hw]
    exact h
  · -- Whose wait is over does not wait, so the wait that ends is the one it had.
    rcases h with ⟨hs₁, hw₁⟩ | ⟨-, hnone, -⟩ | ⟨-, -, hnone⟩
    · refine Or.inr (Or.inl ⟨?_, rfl, congrArg ThreadStatus.unpark hs₁⟩)
      rw [← hw₁, hw]
      rfl
    · cases hw.symm.trans hnone
    · cases hw.symm.trans hnone
  · obtain ⟨id, exitCode', heq, ho⟩ | ⟨id, w, heq⟩ := hl trivial <;> cases heq
    exact Or.inr (Or.inr ⟨hid ▸ ho, rfl, rfl⟩)

/-- A move of dispatch leaves a thread its status, or shifts it between ready and running. -/
theorem Step.shifts (h : t.Step l t') (hl : l.InDispatch) : t'.status = t.status ∨ (t.Runnable ∧ t'.Runnable) := by
  cases h with
  | same | joined | strip => exact Or.inl rfl
  | edit hlife => exact Or.inl (by rw [hlife])
  | arrange _ _ _ hstatus =>
    refine hstatus.imp_right fun hturns => ?_
    cases l with
    | preempt => exact ⟨Or.inr hturns.1, Or.inl hturns.2⟩
    | run | interrupt => exact ⟨Or.inl hturns.1, Or.inr hturns.2⟩
    | hold | unhold => exact absurd hl fun h => h
    | _ => exact absurd hturns fun h => h
  | park hlabel | wake hlabel | launch hlabel | die hlabel =>
    subst hlabel
    exact absurd hl fun h => h

end Thread

namespace Kernel

variable {k k' : Kernel} {o : Operation} {l : Label} {s s' : Stage} {x : ThreadId} {t t' : Thread} {id : ThreadId}

/-- A move that does not schedule, or ends a wait or a thread that the operation is to end, lets a thread drift. -/
theorem waitOrLifeEnds_step (hm : Move l s s') (hc : s.kernel.Coherent) (hl : l.Schedules → l.EndsAny k o)
    (hnew : ∀ u : Thread, l = .create (.thread u) → u.id ≠ t.id)
    (h : ∀ t', s.kernel.thread? t.id = some t' → t.WaitOrLifeEnds k o t') :
    ∀ t', s'.kernel.thread? t.id = some t' → t.WaitOrLifeEnds k o t' := by
  intro t' ht'
  obtain ⟨t₁, ht₁, hstep⟩ | ⟨hcreate, -⟩ := hm.thread hc ht'
  · exact (h t₁ ht₁).step (id_of_thread? ht₁) hstep hl
  · exact absurd (id_of_thread? ht') (hnew t' hcreate)

/-- The only scheduling of most operations is to end threads and waits. -/
theorem endsAny_of_arranges (hstarts : o.starts? = none) (hsuspends : o.suspends? = none) (hresumes : o.resumes? = none)
    (hdispatch : o ≠ .dispatch) (hblock : o.mayBlock = false) (h : o.Arranges k l) : l.EndsAny k o := by
  cases l with
  | launch => cases hstarts.symm.trans h
  | hold => cases hsuspends.symm.trans h
  | unhold => cases hresumes.symm.trans h
  | park => cases hblock.symm.trans h.1
  | preempt | run | interrupt => exact absurd h hdispatch
  | retire id exitCode => exact Or.inl ⟨id, exitCode, rfl, h⟩
  | detach id w => exact Or.inr ⟨id, w, rfl⟩
  | _ => exact absurd h fun h => h

/-- An operation that starts, holds and releases no one makes one of the changes. -/
theorem transition_of_drift (h : k.Coherent ∧ k.IdsBelow) (hn : k.started.Nodup) (hbound : k.SparesLastId o)
    (hschedules : ∀ l, o.Arranges k l → l.EndsAny k o)
    (ht : k.thread? t.id = some t) (ht' : (k.after o).thread? t.id = some t') : t.Transition k o t' := by
  have hbelow := h.2.thread_lt ht
  have hid : t.id ≠ k.nextId := fun heq => by
    rw [heq] at hbelow
    omega
  have hstep : ∀ l s s', o.Permits k l → s.kernel.Coherent → Move l s s' →
      (∀ t', s.kernel.thread? t.id = some t' → t.WaitOrLifeEnds k o t') →
      ∀ t', s'.kernel.thread? t.id = some t' → t.WaitOrLifeEnds k o t' := by
    intro l s s' hl hc hm
    refine waitOrLifeEnds_step hm hc (fun hsch => ?_) fun u hu => ?_
    · cases hl with
      | touch _ harranges => exact hschedules l (harranges hsch)
      | create => exact absurd hsch fun h => h
    · subst hu
      exact fun heq => hid (heq.symm.trans hl.created.1)
  obtain ⟨-, L, hends, -⟩ := permitted_after
    (P := fun s => ∀ t', s.kernel.thread? t.id = some t' → t.WaitOrLifeEnds k o t') h hn hbound
    (fun l s s' hl hc _ => hstep l s s' hl hc) fun t₁ ht₁ => by
      obtain rfl := Option.some.inj (ht.symm.trans ht₁)
      exact Or.inl ⟨rfl, rfl⟩
  exact (hends t' ht').transition (h.1.threads t.id t ht)

/-! ### Calls that block -/

theorem blocks_after {A : Label → Prop} (hA : ∀ l, l.IsPlain → A l) (hV : ∀ l, l.Revises → A l)
    (hon : ∀ kind id, o.object? = some (kind, id) → ∀ l, l.Changes kind id → A l) (ho : o.mayBlock = true) :
    Moves.Blocks A k (k.after o) := by
  cases o with
  | syscall call => exact Moves.performBlocking hA call (fun l hl => hV l hl.revises) hon ho
  | delayThread ticks callbacks => exact Moves.delayThread hA ticks callbacks
  | joinThread id timeout timeoutAddress callbacks => exact Moves.joinThread hA id timeout timeoutAddress callbacks
  | _ => cases ho

/-- A call that may block makes one of the changes. -/
theorem transition_of_block (h : k.Coherent) (ho : o.mayBlock = true) (ht : k.thread? t.id = some t)
    (ht' : (k.after o).thread? t.id = some t') : t.Transition k o t' := by
  have hblocks : Moves.Blocks (fun l => ¬ l.Schedules ∧ ∀ x, l ≠ .create x) k (k.after o) := by
    refine blocks_after (fun l hl => ⟨hl.not_schedules, ?_⟩) (fun l hl => ⟨hl.not_schedules, ?_⟩)
      (fun kind id _ l hl => ⟨hl.not_schedules, ?_⟩) ho
    · rintro x rfl
      exact hl
    · rintro x rfl
      exact hl
    · rintro x rfl
      exact hl
  generalize k.after o = k' at hblocks ht'
  cases hblocks with
  | through hmoves =>
    have hends := hmoves.preserves
      (P := fun s => s.kernel.Coherent ∧ ∀ t', s.kernel.thread? t.id = some t' → t.WaitOrLifeEnds k o t')
      (fun l s s' hl hm ⟨hc, hs⟩ => ⟨hc.step hm fun x hx => absurd hx (hl.2 x),
        waitOrLifeEnds_step hm hc (fun hsch => absurd hsch hl.1) (fun u hu => absurd hu (hl.2 _)) hs⟩) ⟨h, fun t₁ ht₁ => ?_⟩
    · exact (hends.2 t' ht').transition (h.threads t.id t ht)
    · obtain rfl := Option.some.inj (ht.symm.trans ht₁)
      exact Or.inl ⟨rfl, rfl⟩
  | @parks u w e l hd hcur hu he hl hm hsettles =>
    -- The running thread is parked, and the last move leaves all statuses alone.
    have hnote := Quiet.note k he
    have hc := h.sameObjects hnote.toSameObjects
    have hpark : Move (.park u.id w) ⟨k.note e, []⟩ ⟨(k.note e).park u w, [u.id]⟩ := .park hd hcur hu
    have hc' := hc.step hpark fun _ hx => by cases hx
    obtain ⟨t₁, ht₁, hstep₁⟩ | ⟨hcreate, -⟩ := hm.thread hc' ht'
    · obtain ⟨t₀, ht₀, hstep₀⟩ | ⟨hcreate, -⟩ := hpark.thread hc ht₁
      · obtain rfl := Option.some.inj (ht.symm.trans ht₀)
        have hparked : t.Transition k o t₁ := by
          refine .of_step hstep₀ (h.threads t.id t ht) (fun _ => ⟨ho, hcur⟩) fun v hv => ?_
          have hut : k.thread? t.id = some u := (Label.park.inj hv).1 ▸ hu
          obtain rfl := Option.some.inj (hut.symm.trans ht)
          exact h.runs hd hcur hu
        obtain ⟨hs, hw⟩ | ⟨-, result, rfl, -⟩ | ⟨exitCode, rfl, -⟩ :=
          hstep₁.rests_or_dies fun hsch => absurd hsch hl.1
        · exact hparked.congr hs hw
        · exact absurd hsettles fun h => h
        · exact absurd hsettles fun h => h
      · cases hcreate
    · exact absurd hcreate (hl.2 _)

/-! ### Operations of one move -/

/-- As far as threads can tell nothing has happened, or one move with the label. -/
def MovesOnce (k : Kernel) (l : Label) (k' : Kernel) : Prop :=
  k' = k ∨ ∃ k₁, Move l ⟨k, []⟩ ⟨k₁, []⟩ ∧ ∀ x, k'.thread? x = k₁.thread? x

/-- A start is one move. -/
theorem movesOnce_startThread (k : Kernel) (id : ThreadId) (argumentLength argumentAddress : UInt32) :
    k.MovesOnce (.launch id) (k.startThread id argumentLength argumentAddress).kernel := by
  unfold startThread
  split
  · exact Or.inl rfl
  · next t ht =>
    obtain rfl := id_of_thread? ht
    split
    · exact Or.inl rfl
    · next hs => exact Or.inr ⟨_, .launch ht (not_not.mp hs), fun _ => rfl⟩

theorem movesOnce_suspendThread (k : Kernel) (id : ThreadId) :
    k.MovesOnce (.hold id) (k.suspendThread id).kernel := by
  unfold suspendThread
  split
  · exact Or.inl rfl
  next hcur =>
  split
  · exact Or.inl rfl
  · next t ht =>
    obtain rfl := id_of_thread? ht
    split
    · exact Or.inl rfl
    next hd =>
    split
    · exact Or.inl rfl
    · next hs => exact Or.inr ⟨_, .hold ht hcur (by simpa using hd) (by simpa using hs), fun _ => rfl⟩

/-- A release is one move. -/
theorem movesOnce_resumeThread (k : Kernel) (id : ThreadId) :
    k.MovesOnce (.unhold id) (k.resumeThread id).kernel := by
  unfold resumeThread
  split
  · exact Or.inl rfl
  · next t ht =>
    obtain rfl := id_of_thread? ht
    split
    · exact Or.inl rfl
    · next hs => exact Or.inr ⟨_, .unhold ht (not_not.mp hs), fun _ => rfl⟩

theorem movesOnce_of_starts? (ho : o.starts? = some id) : k.MovesOnce (.launch id) (k.after o) := by
  cases o with
  | syscall call =>
    cases call with
    | startThread =>
      cases ho
      exact movesOnce_startThread ..
    | _ => cases ho
  | _ => cases ho

theorem movesOnce_onOther {call : Kernel → ThreadId → Reply Unit}
    (h : k.MovesOnce l (call k id).kernel) : k.MovesOnce l (k.onOther id call).kernel := by
  unfold onOther
  split
  · exact Or.inl rfl
  · exact h

/-- An operation that holds a thread is one move. -/
theorem movesOnce_of_suspends? (ho : o.suspends? = some id) : k.MovesOnce (.hold id) (k.after o) := by
  cases o with
  | syscall call =>
    cases call with
    | suspendThread =>
      cases ho
      exact movesOnce_onOther (movesOnce_suspendThread ..)
    | _ => cases ho
  | suspendThread =>
    cases ho
    exact movesOnce_suspendThread ..
  | _ => cases ho

theorem movesOnce_of_resumes? (ho : o.resumes? = some id) : k.MovesOnce (.unhold id) (k.after o) := by
  cases o with
  | syscall call =>
    cases call with
    | resumeThread =>
      cases ho
      exact movesOnce_onOther (movesOnce_resumeThread ..)
    | _ => cases ho
  | resumeThread =>
    cases ho
    exact movesOnce_resumeThread ..
  | _ => cases ho

/-- An operation of one move makes one of the changes. -/
theorem transition_of_once (h : k.Coherent) (honce : k.MovesOnce l (k.after o)) (hl : o.Arranges k l)
    (hpark : ∀ id w, l ≠ .park id w) (ht : k.thread? t.id = some t) (ht' : (k.after o).thread? t.id = some t') :
    t.Transition k o t' := by
  obtain heq | ⟨k₁, hm, hsame⟩ := honce
  · rw [heq] at ht'
    obtain rfl := Option.some.inj (ht.symm.trans ht')
    exact .stay rfl
  · obtain ⟨t₀, ht₀, hstep⟩ | ⟨rfl, -⟩ := hm.thread h ((hsame t.id).symm.trans ht')
    · obtain rfl := Option.some.inj (ht.symm.trans ht₀)
      exact .of_step hstep (h.threads t.id t ht) (fun _ => hl) fun w hw => absurd hw (hpark t.id w)
    · exact absurd hl fun h => h

/-! ### Dispatch -/

/-- Dispatch makes one of the changes. -/
theorem transition_of_dispatch (h : k.Coherent) (ht : k.thread? t.id = some t)
    (ht' : (k.after .dispatch).thread? t.id = some t') : t.Transition k .dispatch t' := by
  have hmoves : Moves Label.InDispatch ⟨k, []⟩ ⟨k.dispatch.2, []⟩ :=
    .dispatch trivial (fun l hl => by cases l <;> trivial) fun l hl => by cases l <;> trivial
  have hshifts := hmoves.preserves (P := fun s => s.kernel.Coherent ∧ ∀ t', s.kernel.thread? t.id = some t' →
    t'.status = t.status ∨ (t.Runnable ∧ t'.Runnable)) ?_ ⟨h, fun t₁ ht₁ => ?_⟩
  · obtain hs | ⟨hs | hs, hs' | hs'⟩ := hshifts.2 t' ht'
    · exact .stay hs
    · exact .stay (hs'.trans hs.symm)
    · exact .run rfl ⟨hs, hs'⟩
    · exact .preempt rfl ⟨hs, hs'⟩
    · exact .stay (hs'.trans hs.symm)
  · rintro l s s' hl hm ⟨hc, hs⟩
    refine ⟨hc.step hm ?_, fun t₂ ht₂ => ?_⟩
    · rintro o rfl
      exact absurd hl fun h => h
    obtain ⟨t₁, ht₁, hstep⟩ | ⟨rfl, -⟩ := hm.thread hc ht₂
    · obtain hs₂ | ⟨hr₁, hr₂⟩ := hstep.shifts hl
      · unfold Thread.Runnable
        rw [hs₂]
        exact hs t₁ ht₁
      · refine Or.inr ⟨?_, hr₂⟩
        obtain hs₁ | ⟨hr, -⟩ := hs t₁ ht₁
        · unfold Thread.Runnable at hr₁
          rwa [hs₁] at hr₁
        · exact hr
    · exact absurd hl fun h => h
  · obtain rfl := Option.some.inj (ht.symm.trans ht₁)
    exact Or.inl rfl

/-- **An operation changes the status of a thread in one of the listed ways or not at all.** -/
theorem transition_after (h : k.Coherent ∧ k.IdsBelow) (hn : k.started.Nodup) (hbound : k.SparesLastId o)
    (ht : k.thread? t.id = some t) (ht' : (k.after o).thread? t.id = some t') : t.Transition k o t' := by
  have honce : ∀ l, k.MovesOnce l (k.after o) → o.Arranges k l → (∀ id w, l ≠ .park id w) → t.Transition k o t' :=
    fun l hmoves hl hpark => transition_of_once h.1 hmoves hl hpark ht ht'
  cases hstarts : o.starts? with
  | some id => exact honce (.launch id) (movesOnce_of_starts? hstarts) hstarts (by simp)
  | none =>
    cases hsuspends : o.suspends? with
    | some id => exact honce (.hold id) (movesOnce_of_suspends? hsuspends) hsuspends (by simp)
    | none =>
      cases hresumes : o.resumes? with
      | some id => exact honce (.unhold id) (movesOnce_of_resumes? hresumes) hresumes (by simp)
      | none =>
        by_cases hdispatch : o = .dispatch
        · subst hdispatch
          exact transition_of_dispatch h.1 ht ht'
        · cases hblock : o.mayBlock with
          | true => exact transition_of_block h.1 hblock ht ht'
          | false =>
            exact transition_of_drift h hn hbound
              (fun l => endsAny_of_arranges hstarts hsuspends hresumes hdispatch hblock) ht ht'

/-! ### The end of a life -/

/-- Nothing but its end takes a thread that lives away. -/
theorem alive_after (h : k.Coherent ∧ k.IdsBelow) (hn : k.started.Nodup)
    (hbound : k.SparesLastId o) (ht : k.thread? x = some t) (hd : t.status.dead = false) (ho : o.ends? k ≠ some x) :
    ∃ t', (k.after o).thread? x = some t' ∧ t'.status.dead = false := by
  have hstep : ∀ l s s', o.Permits k l → s.kernel.Coherent →
      l.Fresh s.kernel → Move l s s' → (∃ t', s.kernel.thread? x = some t' ∧ t'.status.dead = false) →
      ∃ t', s'.kernel.thread? x = some t' ∧ t'.status.dead = false := by
    rintro l s s' hl hc hfresh hm ⟨t₁, ht₁, hd₁⟩
    obtain ⟨t₂, ht₂⟩ | ⟨hdead, -⟩ := hm.thread_stays hfresh ht₁
    · refine ⟨t₂, ht₂, Bool.eq_false_iff.mpr fun hd₂ => ?_⟩
      obtain ⟨u, hu, hstep⟩ | ⟨rfl, -, -⟩ := hm.thread hc ht₂
      · obtain rfl := Option.some.inj (ht₁.symm.trans hu)
        obtain hdead | ⟨exitCode, rfl⟩ := hstep.dead_of_dead hd₂
        · cases hd₁.symm.trans hdead
        · cases hl with
          | touch _ harranges =>
            have hends : o.ends? k = some t₁.id := harranges trivial
            rw [id_of_thread? ht₁] at hends
            exact ho hends
      · have hnone := hfresh _ rfl
        rw [show (Object.thread t₂).id = x from id_of_thread? ht₂, ObjectTable.thread?_eq_some.mp ht₁] at hnone
        cases hnone
    · cases hd₁.symm.trans hdead
  obtain ⟨-, L, halive, -⟩ := permitted_after
    (P := fun s => ∃ t', s.kernel.thread? x = some t' ∧ t'.status.dead = false) h hn hbound hstep ⟨t, ht, hd⟩
  exact halive

section

variable {Q : Thread → Prop} (hQ : ∀ l t t', t.Step l t' → Q t → Q t')
include hQ

/-- What every step keeps of threads holds of a thread as long as it is registered. -/
theorem kept_run (operations : List Operation)
    (h : k.Coherent ∧ k.IdsBelow) (hn : k.started.Nodup) (hbound : k.nextId.toNat + k.handedOut operations < 2 ^ 32)
    (ht : k.thread? x = some t) (hq : Q t) (ht' : (k.run operations).thread? x = some t') : Q t' := by
  refine (run_preserves (P := fun k => (k.Coherent ∧ k.IdsBelow) ∧ x.toNat < k.nextId.toNat ∧
    ∀ t', k.thread? x = some t' → Q t') ?_ operations hn hbound (along_true _ operations)
    ⟨h, h.2.thread_lt ht, fun t₁ ht₁ => ?_⟩).2.2 t' ht'
  · rintro k o hn hroom - ⟨hc, hlt, hq⟩
    obtain ⟨hc', L, hkept, -⟩ := permitted_after (P := fun s => ∀ t', s.kernel.thread? x = some t' → Q t')
      hc hn hroom (fun l s s' hl hc _ hm => kept_step (fun t t' _ => hQ l t t') hlt hl hc hm) hq
    refine ⟨hc', ?_, hkept⟩
    obtain heq | heq := (moves_after k o hn).1
    · rw [heq]
      exact hlt
    · have hone := hroom (by simp [heq])
      rw [heq, UInt32.toNat_add, show (1 : UInt32).toNat = 1 from rfl, Nat.mod_eq_of_lt hone]
      omega
  · obtain rfl := Option.some.inj (ht.symm.trans ht₁)
    exact hq

end

/-- A thread takes part in nothing: it is neither ready nor on the processor, stands in no queue, and nobody waits for
its end. -/
structure AtRest (k : Kernel) (t : Thread) : Prop where
  ready : ∀ e ∈ k.ready.entries, e.thread ≠ t.id
  current : k.current ≠ some t.id
  queues : ∀ x o, k.objects.get? x = some o → t.id ∉ o.waiting
  exitWaiters : t.exitWaiters = []

/-- The dead take part in nothing. -/
theorem Coherent.atRest (h : k.Coherent) (hplaced : k.Placed []) (hnobody : k.Unjoined) (ht : k.thread? t.id = some t)
    (hs : t.status = .onlyDead) : k.AtRest t where
  ready e he heq := by
    obtain ⟨u, hu, hready, -⟩ := h.ready.sound e he
    rw [heq, ht, Option.some.injEq] at hu
    rw [← hu, hs] at hready
    cases hready
  current hcur := by
    obtain ⟨u, hu, hruns⟩ := h.current t.id hcur
    obtain rfl := Option.some.inj (ht.symm.trans hu)
    rw [hs] at hruns
    split at hruns
    · rcases hruns with hruns | hruns <;> cases hruns
    · cases hruns
  queues x o ho hmem := by
    obtain ⟨u, w, hu, hw, -⟩ := hplaced.waits ho hmem
    obtain rfl := Option.some.inj (ht.symm.trans hu)
    rw [(h.threads t.id t ht).wait_eq_none (by rw [hs]; rfl)] at hw
    cases hw
  exitWaiters := hnobody t.id t ht (by unfold Thread.isDormant; rw [hs]; rfl)

/-- The lives of threads, as an operation and those that come later show them. -/
structure LifeCycle (k : Kernel) (o : Operation) (later : List Operation) : Prop where
  transition : ∀ x t t', k.thread? x = some t → (k.after o).thread? x = some t' → t.Transition k o t'
  /-- Whoever joined a thread goes on when the thread dies, even if it is gone after that. -/
  released : ∀ x t, k.thread? x = some t → t.status ≠ .onlyDead →
    (∀ t', (k.after o).thread? x = some t' → t'.status = .onlyDead) →
    ∀ y u w, k.thread? y = some u → u.wait = some w → w.kind = .join → w.handle = x → (k.after o).Released u
  /-- Death is final. -/
  dead : ∀ x t, k.thread? x = some t → t.status = .onlyDead → k.AtRest t ∧
    ∀ t', (k.run (o :: later)).thread? x = some t' →
      t'.status = .onlyDead ∧ t'.exitCode = t.exitCode ∧ (k.run (o :: later)).AtRest t'
  /-- No thread is stopped again. -/
  started : ∀ x t t', k.thread? x = some t → t.status ≠ .onlyStopped →
    (k.run (o :: later)).thread? x = some t' → t'.status ≠ .onlyStopped

/-- **The life cycle of threads.** In every reachable state every operation changes the status of a thread in one of the
listed ways or not at all. All that joined a thread which dies are woken with the result 0. A dead thread stays dead and
keeps its exit code, and is in no queue and not on the processor, until it is deleted, and no thread is stopped again. -/
theorem lifeCycle_run (config : KernelConfig) (memory : Memory) (operations later : List Operation) (o : Operation)
    (hids : (Kernel.new config memory).handedOut (operations ++ o :: later) < 2 ^ 32 - 1) :
    ((Kernel.new config memory).run operations).LifeCycle o later := by
  have hfirst := nextId_new config memory
  have hle := handedOut_le_append (Kernel.new config memory) operations (o :: later)
  -- What holds in the state, and at the end of the run.
  obtain ⟨hc, hplaced⟩ := placed_run config memory operations (by omega)
  have hnobody := unjoined_run config memory operations (by omega)
  have hjoined := joined_run config memory operations (by omega)
  have hn := nodup_started_run config memory operations
  have hnext := toNat_nextId_run operations (nodup_started_new config memory) (by omega)
  obtain ⟨hc', hplaced'⟩ := placed_run config memory _ hids
  have hnobody' := unjoined_run config memory _ hids
  rw [handedOut_append] at hids
  rw [run_append] at hc' hplaced' hnobody'
  generalize (Kernel.new config memory).run operations = k at *
  have hbound : k.nextId.toNat + k.handedOut (o :: later) < 2 ^ 32 := by omega
  have hroom : (k.after o).nextId ≠ k.nextId → k.nextId.toNat + 1 < 2 ^ 32 := by
    intro hne
    rw [handedOut, if_neg hne] at hbound
    omega
  refine ⟨fun x t t' ht ht' => ?_, fun x t ht hs hgone y u w hu hw hkind hhandle => ?_, fun x t ht hs => ?_,
    fun x t t' ht hs ht' hs' => hs ?_⟩
  · have hid := id_of_thread? ht
    exact transition_after hc hn hroom (thread?_id ht) (hid.symm ▸ ht')
  · have hid := id_of_thread? ht
    have hdead : t.status.dead = false := Bool.eq_false_iff.mpr fun hd => hs ((hc.1.threads x t ht).of_dead hd)
    have hends : o.ends? k = some t.id := by
      by_contra hno
      obtain ⟨t', ht', halive⟩ := alive_after hc hn hroom (thread?_id ht) hdead hno
      rw [hgone t' (hid ▸ ht')] at halive
      cases halive
    refine hjoined.released (thread?_id ht) hdead (endsThread_after (thread?_id ht) hends) (fun t' ht' => ?_)
      (thread?_id hu) hw hkind (hhandle.trans hid.symm)
    rw [hgone t' (hid ▸ ht')]
    rfl
  · refine ⟨hc.1.atRest hplaced hnobody (thread?_id ht) hs, fun t' ht' => ?_⟩
    obtain ⟨hd, hexit⟩ := kept_run (Q := fun u => u.status.dead = true ∧ u.exitCode = t.exitCode)
      (fun l u u' hstep hu => (hstep.stays_dead hu.1).imp_right fun heq => heq.trans hu.2) (o :: later) hc hn hbound ht
      ⟨by rw [hs]; rfl, rfl⟩ ht'
    have hs' := (hc'.1.threads x t' ht').of_dead hd
    exact ⟨hs', hexit, hc'.1.atRest hplaced' hnobody' (thread?_id ht') hs'⟩
  · refine (hc.1.threads x t ht).of_stopped ?_
    by_contra hno
    refine kept_run (Q := fun u => u.status.stopped ≠ true) (fun l u u' hstep hu hstopped => ?_) (o :: later) hc hn hbound
      ht hno ht' (by rw [hs']; rfl)
    exact hu (hstep.stopped_of_stopped hstopped)

/-- A thread has joined another one, which runs, and is put on hold while it waits. -/
def joinedWorker : List Operation :=
  [.syscall (.createThread "main" 0x08900000 32 0x1000 0), .syscall (.createThread "worker" 0x08900000 40 0x1000 0),
    .syscall (.startThread 1 0 0), .dispatch, .syscall (.startThread 2 0 0), .syscall (.waitThreadEnd 2 0 false),
    .dispatch, .suspendThread 1]

/-- The worker exits with 7. The other thread is let go, on hold as it is, and the worker is dead and has its exit code
however the run goes on, whether somebody tries to end it again, to start it or to join it. -/
theorem lifeCycle_joinedWorker :
    let k := (Kernel.new {} {}).run joinedWorker
    let k' := k.after (.syscall (.exitThread 7))
    let k'' := k'.run [.terminateThread 2, .resumeThread 1, .dispatch, .syscall (.startThread 2 0 0),
      .syscall (.waitThreadEnd 2 0 false)]
    (k.thread? 2).map (·.status) = some .onlyRunning ∧
      (k.thread? 1).map (fun u => (u.status, u.wait.map fun w => (w.kind, w.handle))) =
        some (.waitSuspended, some (.join, 2)) ∧
      (k'.thread? 2).map (fun t => (t.status, t.exitCode)) = some (.onlyDead, 7) ∧
      (∃ u, k.thread? 1 = some u ∧ k'.Released u) ∧ (k'.thread? 1).map (·.status) = some .onlySuspended ∧
      (∃ t, k''.thread? 2 = some t ∧ t.status = .onlyDead ∧ t.exitCode = 7 ∧ k''.AtRest t) ∧
      k''.current = some 1 := by
  intro k k' k''
  have hworker : (k.thread? 2).map (·.status) = some .onlyRunning := by decide +kernel
  have hmain : (k.thread? 1).map (fun u => (u.status, u.wait.map fun w => (w.kind, w.handle))) =
      some (.waitSuspended, some (.join, 2)) := by decide +kernel
  have hdead : (k'.thread? 2).map (fun t => (t.status, t.exitCode)) = some (.onlyDead, 7) := by decide +kernel
  have hend : (k''.thread? 2).isSome = true := by decide +kernel
  have hlife := lifeCycle_run {} {} joinedWorker [] (.syscall (.exitThread 7)) (handedOut_lt (by decide))
  have hlater := lifeCycle_run {} {} (joinedWorker ++ [.syscall (.exitThread 7)])
    [.resumeThread 1, .dispatch, .syscall (.startThread 2 0 0), .syscall (.waitThreadEnd 2 0 false)]
    (.terminateThread 2) (handedOut_lt (by decide))
  refine ⟨hworker, hmain, hdead, ?_, by decide +kernel, ?_, by decide +kernel⟩
  · obtain ⟨t, ht, hrunning⟩ := Option.map_eq_some_iff.mp hworker
    obtain ⟨u, hu, hwaits⟩ := Option.map_eq_some_iff.mp hmain
    obtain ⟨-, hwait⟩ := Prod.mk.inj hwaits
    obtain ⟨w, hw, hjoins⟩ := Option.map_eq_some_iff.mp hwait
    obtain ⟨hkind, hhandle⟩ := Prod.mk.inj hjoins
    refine ⟨u, hu, hlife.released 2 t ht (by rw [hrunning]; decide) (fun t' ht' => ?_) 1 u w hu hw hkind hhandle⟩
    replace ht' : k'.thread? 2 = some t' := ht'
    rw [ht', Option.map_some, Option.some.injEq] at hdead
    exact (Prod.mk.inj hdead).1
  · obtain ⟨t, ht, hs⟩ := Option.map_eq_some_iff.mp hdead
    obtain ⟨hs, hcode⟩ := Prod.mk.inj hs
    obtain ⟨t'', ht''⟩ := Option.isSome_iff_exists.mp hend
    rw [run_append] at hlater
    obtain ⟨hs'', hcode'', hrest⟩ := (hlater.dead 2 t ht hs).2 t'' ht''
    exact ⟨t'', ht'', hs'', hcode''.trans hcode, hrest⟩

end Kernel
end GuestKernel
