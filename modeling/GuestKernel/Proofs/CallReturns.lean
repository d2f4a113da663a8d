/-
# How the caller of a system call goes on

A system call either takes the processor from its caller, because it blocks or ends it, or lets it go on with a result in
`v0` and all else in its registers as it was. What the call returns says which of the two it did.

| | |
| --- | --- |
| who leaves the processor | `Move.leaves`, `current_perform`, `seats_perform` |
| what happens to a context that its thread keeps | `Move.register_eq`, `Occupies.step` |
| both, for one call | `proceeds_perform` |

The one call that may fail after it has ended its caller is the one that deletes it too. It cannot fail so where the
thread's blocks are its own, which takes partitions that end within the address space.

Source: specification, 4.7.
-/

import GuestKernel.Proofs.CallbackDelivery
import GuestKernel.Proofs.Joins

namespace GuestKernel

/-! ### One move -/

namespace Move

variable {l : Label} {s s' : Stage} {c : ContextId}

/-- The processor goes to somebody by dispatch alone; it is taken from a thread that is parked or dies, or at the end of
a callback. -/
theorem leaves (hm : Move l s s') (hl : ¬ l.Dispatches) : s'.kernel.current = s.kernel.current ∨
    s'.kernel.current = none ∧
      (l.EndsDelivery ∨ (∃ id w, l = .park id w) ∨ ∃ id e, l = .retire id e ∧ s.kernel.current = some id) := by
  have hsame := hm.sameProcessor
  cases hm with
  | park => exact Or.inr ⟨rfl, Or.inr (Or.inl ⟨_, _, rfl⟩)⟩
  | @retire k t exitCode =>
    have hcurrent := (Kernel.processor_retire k t exitCode).2
    by_cases hc : k.current = some t.id
    · rw [if_pos hc] at hcurrent
      exact Or.inr ⟨hcurrent, Or.inr (Or.inr ⟨t.id, exitCode, rfl, hc⟩)⟩
    · rw [if_neg hc] at hcurrent
      exact Or.inl hcurrent
  | preempt | run | interrupt => exact absurd trivial hl
  | dropDelivery => exact Or.inl rfl
  | @endDelivery k L d =>
    cases hfrom : d.fromWait with
    | false =>
      refine Or.inl ?_
      unfold Kernel.endDelivery
      simp [hfrom]
    | true =>
      refine Or.inr ⟨?_, Or.inl trivial⟩
      unfold Kernel.endDelivery
      simp [hfrom]
  | _ => exact Or.inl (hsame trivial).1

/-- Without a callback's return and the guest's own writes, a register other than `v0` changes only with the context it
is in: when that is made, or given back with its thread. -/
theorem register_eq (hm : Move l s s') (hl : ¬ l.Loads) (hnew : ∀ id, l = .launch id → c ≠ s.kernel.contexts.freshId)
    (hold : ∀ id, l = .strip id → s.kernel.contextOf? id ≠ some c) {i : Nat} (hi : i ≠ Register.v0.val) :
    s'.kernel.contexts.register c i = s.kernel.contexts.register c i := by
  have hsame : s'.kernel.contexts = s.kernel.contexts →
      s'.kernel.contexts.register c i = s.kernel.contexts.register c i := fun h => by rw [h]
  have hrearranges := hm.rearranges
  cases hm with
  | quiet hq => exact hq.registers c i hi
  | load => exact absurd trivial hl
  | resource _ _ hx | reserve _ hx => exact hsame hx
  | create | erase | change | enqueue | edit | park | doze | bury => rfl
  | detach => exact hsame (Kernel.contexts_detach ..)
  | @wake k L id result =>
    dsimp only
    obtain ⟨e, heq, -⟩ | ⟨t, w, rfl, ht, hw⟩ := Kernel.wake_cases k id result
    · rw [heq]
      rfl
    · rw [Kernel.contexts_wake ht hw]
      cases t.context with
      | none => rfl
      | some c' => exact Kernel.register_setRegister_other k.contexts c' _ c hi
  | retire => exact hsame (Kernel.contexts_retire ..)
  | @launch k L t registers =>
    rw [Kernel.contexts_launch]
    show (k.contexts.allocate t.entry registers).register c i = k.contexts.register c i
    unfold Contexts.register
    rw [Contexts.get?_allocate, if_neg (Ne.symm (hnew t.id rfl))]
  | @strip k L t contexts ht hs hx =>
    obtain rfl | ⟨c', hc', rfl⟩ := hx
    · rfl
    · have hne : c' ≠ c := by
        rintro rfl
        exact hold t.id rfl (Kernel.contextOf?_eq_some.mpr ⟨t, ht, hc'⟩)
      show (k.contexts.release c').register c i = k.contexts.register c i
      unfold Contexts.register
      rw [Contexts.get?_release, if_neg hne]
  | _ => exact hsame (hrearranges trivial).contexts

end Move

/-- Only the return from a callback and the guest itself fill registers. -/
theorem Operation.Permits.not_loads {o : Operation} {k : Kernel} {l : Label} (h : o.Permits k l)
    (ho : o.loads = false) : ¬ l.Loads := by
  intro hl
  cases l with
  | load =>
    cases h with
    | touch h =>
      rcases h with h | ⟨kind, id, -, h⟩ | ⟨kind, id, -, h⟩ | ⟨-, h⟩ | ⟨-, h⟩ | ⟨h, -⟩
      · exact h
      · exact h
      · exact h
      · exact h
      · exact h
      · rw [ho] at h
        cases h
  | _ => exact hl

/-- A thread that runs or waits does so until it dies. -/
theorem Thread.Step.stays_active {l : Label} {t t' : Thread} (h : t.Step l t') (hd : t.isDormant = false) :
    t'.isDormant = false ∨ ∃ exitCode, l = .retire t.id exitCode := by
  obtain ⟨hstopped, hdead⟩ := Bool.or_eq_false_iff.mp hd
  by_cases hstopped' : t'.status.stopped = true
  · rw [h.stopped_of_stopped hstopped'] at hstopped
    cases hstopped
  by_cases hdead' : t'.status.dead = true
  · refine Or.inr ((h.dead_of_dead hdead').resolve_left fun htrue => ?_)
    rw [htrue] at hdead
    cases hdead
  · exact Or.inl (Bool.or_eq_false_iff.mpr ⟨Bool.eq_false_iff.mpr hstopped', Bool.eq_false_iff.mpr hdead'⟩)

namespace Kernel

variable {k k' : Kernel} {l : Label} {s s' : Stage} {id : ThreadId} {c : ContextId} {k₁ : Kernel} {call : Syscall}
  {answer : Answer} {e : KernelError} {v need count : Int32} {w : Wait} {callbacks sending : Bool} {ticks : UInt64}
  {timeoutAddress : UInt32} {r : EventRequest}

/-- A thread that runs or waits has a context, which is live and nobody else's. -/
structure Occupies (k : Kernel) (id : ThreadId) (c : ContextId) : Prop where
  holder : ∃ t, k.thread? id = some t ∧ t.isDormant = false ∧ t.context = some c
  alone : ∀ x, k.contextOf? x = some c → x = id
  live : (k.contexts.get? c).isSome = true

theorem Occupies.contextOf? (h : k.Occupies id c) : k.contextOf? id = some c := by
  obtain ⟨t, ht, -, hx⟩ := h.holder
  exact contextOf?_eq_some.mpr ⟨t, ht, hx⟩

/-- **A thread keeps its context to itself until it dies.** -/
theorem Occupies.step (h : s.kernel.Occupies id c) (hc : s.kernel.Coherent) (hm : Move l s s')
    (hfresh : l.Fresh s.kernel)
    (hnew : ∀ x, l = .launch x → c ≠ s.kernel.contexts.freshId) (hretire : ∀ e, l ≠ .retire id e) :
    s'.kernel.Occupies id c := by
  have hholder : ∃ t, s'.kernel.thread? id = some t ∧ t.isDormant = false ∧ t.context = some c := by
    obtain ⟨t, ht, hd, hx⟩ := h.holder
    have halive : t.status.dead = false := (Bool.or_eq_false_iff.mp hd).2
    obtain ⟨t', ht'⟩ | ⟨hdead, -⟩ := hm.thread_stays hfresh ht
    · obtain ⟨u, hu, hstep⟩ | ⟨hl, -, -⟩ := hm.thread hc ht'
      · obtain rfl := Option.some.inj (ht.symm.trans hu)
        obtain hd' | ⟨e, he⟩ := hstep.stays_active hd
        · exact ⟨t', ht', hd', (hstep.context_of_active hd).trans hx⟩
        · rw [id_of_thread? ht] at he
          exact absurd he (hretire e)
      · have hnone := hfresh _ hl
        rw [show (Object.thread t').id = id from id_of_thread? ht', ObjectTable.thread?_eq_some.mp ht] at hnone
        cases hnone
    · rw [hdead] at halive
      cases halive
  refine ⟨hholder, fun x hx => ?_, ?_⟩
  · obtain hx' | ⟨hl, heq⟩ := held_step hc hm hx
    · exact h.alone x hx'
    · exact absurd heq (hnew x hl)
  · obtain hlive | ⟨x, hx, hgone⟩ := live_step hm h.live
    · exact hlive
    · obtain ⟨t, ht, -, hcontext⟩ := hholder
      rw [h.alone x hx, contextOf?_eq_some.mpr ⟨t, ht, hcontext⟩] at hgone
      cases hgone

/-! ### One call -/

/-- A kernel that operations lead to, with a thread on the processor. -/
structure Hosts (k : Kernel) (id : ThreadId) (c : ContextId) : Prop where
  coherent : k.Coherent ∧ k.IdsBelow
  leased : k.Leased ∧ k.Numbered
  started : k.started.Nodup
  current : k.current = some id
  context : k.contextOf? id = some c

theorem Hosts.occupies (h : k.Hosts id c) : k.Occupies id c := by
  obtain ⟨t, ht, hx⟩ := contextOf?_eq_some.mp h.context
  refine ⟨⟨t, ht, ?_, hx⟩, fun x hx' => h.leased.1.apart x id c hx' h.context, h.leased.1.live id c h.context⟩
  exact h.coherent.1.active_of_current h.current ht

/-- A note in the journal leaves the caller where it is. -/
theorem Hosts.note (h : k.Hosts id c) {e : Event} (he : e.isQuiet = true) : (k.note e).Hosts id c where
  coherent := ⟨h.coherent.1.sameObjects (Quiet.note k he).toSameObjects, h.coherent.2⟩
  leased := ⟨⟨h.leased.1.live, h.leased.1.apart, h.leased.1.listed⟩,
    ⟨h.leased.2.ids, h.leased.2.numbers, h.leased.2.launched⟩⟩
  started := h.started
  current := h.current
  context := h.context

/-- The thread that had the processor has it still, with its context and all registers but `v0`. -/
structure Proceeds (k k' : Kernel) (id : ThreadId) (c : ContextId) : Prop where
  current : k'.current = some id
  occupies : k'.Occupies id c
  registers : ∀ i, i ≠ Register.v0.val → k'.contexts.register c i = k.contexts.register c i

theorem Hosts.proceeds_of_noted (h : k.Hosts id c) (hk : Noted k k') : k.Proceeds k' id c := by
  rw [hk]
  exact ⟨h.current, ⟨h.occupies.holder, h.occupies.alone, h.occupies.live⟩, fun _ _ => rfl⟩

theorem Proceeds.noted (h : k.Proceeds k' id c) (hk : Noted k' k₁) : k.Proceeds k₁ id c := by
  rw [hk]
  exact ⟨h.current, ⟨h.occupies.holder, h.occupies.alone, h.occupies.live⟩, h.registers⟩

/-- **A call that does not end its caller leaves its context to it**, and writes at most `v0` there. -/
theorem Hosts.spares_perform (h : k.Hosts id c) (call : Syscall) (hends : call.ends? k ≠ some id) :
    (k.perform call).kernel.Occupies id c ∧
      ∀ i, i ≠ Register.v0.val → (k.perform call).kernel.contexts.register c i = k.contexts.register c i := by
  -- A call that starts a thread makes no object, so that there are numbers left for contexts.
  have hafter := staged_after (o := .syscall call)
    (P := fun s => (s.kernel.Occupies id c ∧
        ∀ i, i ≠ Register.v0.val → s.kernel.contexts.register c i = k.contexts.register c i) ∧
      (call.creates? = none → s.kernel.Leased ∧ s.kernel.Numbered)) h.coherent h.started ?_
    ⟨⟨h.occupies, fun _ _ => rfl⟩, fun _ => h.leased⟩
  · obtain ⟨-, L, ⟨hspared, -⟩, -⟩ := hafter
    exact hspared
  rintro l s s' hl hc hfresh hm ⟨⟨hoccupies, hregisters⟩, hleased⟩
  have hnew : ∀ x, l = .launch x → c ≠ s.kernel.contexts.freshId := by
    rintro x rfl heq
    have hstarts : call.starts? = some x := by
      cases hl with
      | touch _ hs => exact hs trivial
    have hnumbered := (hleased (by cases call <;> first | rfl | cases hstarts)).2
    have hlt := hnumbered.numbers.2 c hoccupies.live
    rw [heq, Contexts.freshId_eq hnumbered.numbers.1] at hlt
    omega
  have hretire : ∀ e, l ≠ .retire id e := by
    rintro e rfl
    cases hl with
    | touch _ hs => exact hends (hs trivial)
  have hold : ∀ x, l = .strip x → s.kernel.contextOf? x ≠ some c := by
    rintro x rfl hx
    obtain ⟨t, ht, hd, -⟩ := hoccupies.holder
    obtain rfl := hoccupies.alone x hx
    cases hm with
    | strip ht' hdead =>
      obtain rfl := Option.some.inj (ht.symm.trans ht')
      rw [(Bool.or_eq_false_iff.mp hd).2] at hdead
      cases hdead
  refine ⟨⟨hoccupies.step hc hm hfresh hnew hretire, fun i hi => ?_⟩, fun hcreates => ?_⟩
  · exact (hm.register_eq (hl.not_loads rfl) hnew hold hi).trans (hregisters i hi)
  · obtain ⟨hl', hn'⟩ := hleased hcreates
    refine ⟨hl'.step hn' hc hm, hn'.step hc hm ?_⟩
    rintro x rfl
    cases hcreates.symm.trans hl.created.2.2

/-- Without a park, a call that does not end the thread on the processor leaves it there. -/
theorem current_perform (hn : k.started.Nodup) (call : Syscall) (hblock : call.mayBlock = false)
    (hends : ∀ x, call.ends? k = some x → k.current ≠ some x) : (k.perform call).kernel.current = k.current := by
  obtain ⟨-, L, hmoves, -⟩ := moves_after k (.syscall call) hn
  refine hmoves.preserves (P := fun s => s.kernel.current = k.current) ?_ rfl
  intro l s s' hl hm hs
  have hdispatch : ¬ l.Dispatches := by
    intro hd
    cases l with
    | preempt | run | interrupt =>
      cases hl with
      | touch _ harranges => cases harranges trivial
    | _ => exact hd
  obtain heq | ⟨-, hend | ⟨x, w, rfl⟩ | ⟨x, e, rfl, hx⟩⟩ := hm.leaves hdispatch
  · exact heq.trans hs
  · exact absurd hend (hl.not_endsDelivery rfl)
  · cases hl with
    | touch _ harranges =>
      have hyes : call.mayBlock = true := (harranges trivial).1
      rw [hblock] at hyes
      cases hyes
  · cases hl with
    | touch _ harranges => exact absurd (hs.symm.trans hx) (hends x (harranges trivial))

/-! ### Calls that may block -/

/-- The thread on the processor leaves it if it is blocked, and only then. -/
def Seats (k : Kernel) (r : Reply WaitOutcome) : Prop :=
  (r.result = .ok .blocked ∧ r.kernel.current = none) ∨ (r.result ≠ .ok .blocked ∧ r.kernel.current = k.current)

theorem seats_refuse (h : k'.current = k.current) : k.Seats (k'.refuse e) :=
  Or.inr ⟨nofun, h⟩

theorem seats_completed (h : k'.current = k.current) : k.Seats (k'.done (.completed v)) :=
  Or.inr ⟨nofun, h⟩

theorem seats_map {r : Reply Unit} (h : r.kernel.current = k.current) :
    k.Seats (r.map fun _ => .completed 0) := by
  refine Or.inr ⟨?_, h⟩
  unfold Reply.map
  cases r.result <;> nofun

theorem seats_block {ρ : Type} (request : ρ) (queue : Waiter ρ → Object) : k.Seats (k.block w request queue) := by
  obtain ⟨k', e, hq, -, heq⟩ | ⟨t, timeout, -, -, -, heq⟩ := block_cases k w request queue <;> rw [heq]
  · exact seats_refuse hq.current
  · exact Or.inl ⟨rfl, rfl⟩

/-- A sleeper leaves the processor unless a wakeup was stored for it. -/
theorem seats_sleepThread : k.Seats (k.sleepThread callbacks) := by
  unfold sleepThread
  split
  · exact seats_refuse rfl
  · split
    · exact seats_refuse rfl
    · split
      · exact seats_completed rfl
      · obtain ⟨e, heq⟩ | ⟨t, -, -, -, heq⟩ := beginWait_cases k { kind := .sleep, callbacks } <;> rw [heq]
        · exact seats_refuse rfl
        · exact Or.inl ⟨rfl, rfl⟩

theorem seats_delayThread : k.Seats (k.delayThread ticks callbacks) := by
  unfold delayThread
  obtain ⟨e, heq⟩ | ⟨t, -, -, -, heq⟩ := beginWait_cases k { kind := .delay, timeout := max ticks 1, callbacks } <;>
    rw [heq]
  · exact seats_refuse rfl
  · exact Or.inl ⟨rfl, rfl⟩

/-- A joiner leaves the processor unless the other thread has ended. -/
theorem seats_waitThreadEnd : k.Seats (k.waitThreadEnd id timeoutAddress callbacks) := by
  unfold waitThreadEnd joinThread
  split
  · exact Or.inr ⟨nofun, rfl⟩
  · next timeout _ =>
    split
    · exact seats_refuse rfl
    · split
      · exact seats_refuse rfl
      · split
        · exact seats_completed rfl
        · obtain ⟨e, heq⟩ | ⟨t, -, -, -, heq⟩ :=
            beginWait_cases k { kind := .join, handle := id, timeout, timeoutAddress, callbacks } <;> rw [heq]
          · exact seats_refuse rfl
          · exact Or.inl ⟨rfl, rfl⟩

theorem seats_waitSemaphore : k.Seats (k.waitSemaphore id need timeoutAddress callbacks) := by
  unfold waitSemaphore
  split
  · exact seats_refuse rfl
  · split
    · exact seats_refuse rfl
    · split
      · exact seats_completed rfl
      · exact seats_block _ _

theorem seats_waitEventFlag : k.Seats (k.waitEventFlag id r timeoutAddress callbacks) := by
  unfold waitEventFlag
  split
  · exact seats_refuse rfl
  · split
    · exact seats_map (Quiet.withMemory _ _).current
    · exact seats_block _ _

theorem seats_lockMutex : k.Seats (k.lockMutex id count timeoutAddress callbacks) := by
  unfold lockMutex
  split
  · exact seats_refuse rfl
  · exact seats_completed rfl
  · exact seats_block _ _

theorem seats_blockOnPipe (r : PipeRequest) : k.Seats (k.blockOnPipe id r timeoutAddress callbacks sending) := by
  unfold blockOnPipe
  split
  · exact seats_refuse rfl
  · exact seats_block _ _

/-- A sender leaves the processor if it has to wait for room. -/
theorem seats_sendPipe (hn : k.started.Nodup) (r : PipeRequest) : k.Seats (k.sendPipe id r timeoutAddress callbacks) := by
  have htry : (k.trySendPipe id r).kernel.current = k.current :=
    current_perform hn (.trySendPipe id r) rfl nofun
  unfold sendPipe
  split
  · next k' hfull =>
    obtain ⟨rfl, -⟩ := trySendPipe_full hfull
    exact seats_blockOnPipe ..
  · exact seats_map htry

/-- A receiver leaves the processor if it has to wait for bytes. -/
theorem seats_receivePipe (hn : k.started.Nodup) (r : PipeRequest) :
    k.Seats (k.receivePipe id r timeoutAddress callbacks) := by
  have htry : (k.tryReceivePipe id r).kernel.current = k.current :=
    current_perform hn (.tryReceivePipe id r) rfl nofun
  unfold receivePipe
  split
  · next k' hempty =>
    obtain ⟨rfl, -⟩ := tryReceivePipe_empty hempty
    exact seats_blockOnPipe ..
  · exact seats_map htry

/-- A call that may block answers with what has become of its caller. -/
theorem seats_perform (hn : k.started.Nodup) (hcall : call.mayBlock = true) :
    ∃ r, k.perform call = r.map .outcome ∧ k.Seats r := by
  cases call with
  | waitThreadEnd => exact ⟨_, rfl, seats_waitThreadEnd⟩
  | sleepThread => exact ⟨_, rfl, seats_sleepThread⟩
  | delayThread => exact ⟨_, rfl, seats_delayThread⟩
  | waitSemaphore => exact ⟨_, rfl, seats_waitSemaphore⟩
  | waitEventFlag => exact ⟨_, rfl, seats_waitEventFlag⟩
  | lockMutex => exact ⟨_, rfl, seats_lockMutex⟩
  | sendPipe => exact ⟨_, rfl, seats_sendPipe hn ..⟩
  | receivePipe => exact ⟨_, rfl, seats_receivePipe hn ..⟩
  | _ => cases hcall

/-- The other calls have a value for their caller. -/
theorem value?_perform (hcall : call.mayBlock = false)
    (h : (k.perform call).result = .ok answer) : ∃ v, answer.value? = some v := by
  have hmap : ∀ {α : Type} (r : Reply α) (f : α → Answer), (∀ a, ∃ v, (f a).value? = some v) →
      (r.map f).result = .ok answer → ∃ v, answer.value? = some v := by
    intro α r f hf hok
    unfold Reply.map at hok
    cases hr : r.result with
    | error e => rw [hr] at hok; cases hok
    | ok a => rw [hr] at hok; cases hok; exact hf a
  cases call with
  | waitThreadEnd | sleepThread | delayThread | waitSemaphore | waitEventFlag => cases hcall
  | lockMutex | sendPipe | receivePipe => cases hcall
  | systemTime | systemTimeLow => cases h; exact ⟨_, rfl⟩
  | _ => exact hmap _ _ (fun _ => ⟨_, rfl⟩) h

/-! ### Calls that end their caller -/

variable {t : Thread}

theorem current_wakeAll (k : Kernel) (ids : List ThreadId) (result : Int32) :
    (k.wakeAll ids result).current = k.current := by
  unfold wakeAll
  induction ids generalizing k with
  | nil => rfl
  | cons id rest ih => exact (ih _).trans (sameProcessor_wake k id result).1

/-- A thread on the processor leaves it with its life. -/
theorem current_exit (hc : k.current = some t.id) (hd : t.status.dead = false) (exitCode : Int32) :
    (k.exit t exitCode).current = none := by
  unfold exit
  rw [if_neg (by rw [hd]; decide), current_wakeAll]
  show (k.retire t exitCode).current = none
  rw [(processor_retire k t exitCode).2, if_pos hc]

/-- Deleting a thread gives the processor to nobody. -/
theorem current_deleteThread (hc : k.current = none) (id : ThreadId) : (k.deleteThread id).kernel.current = none := by
  have hmoves : Moves (fun l => ¬ l.Dispatches) ⟨k, []⟩ ⟨(k.deleteThread id).kernel, []⟩ := by
    refine .deleteThread (fun l hl hd => ?_) (fun l hl hd => ?_) (fun l hl hd => ?_) (fun _ h => h) <;>
      cases l <;> first | exact hd | exact hl
  refine hmoves.preserves (P := fun s => s.kernel.current = none) (fun l s s' hl hm hs => ?_) hc
  obtain heq | ⟨hnone, -⟩ := hm.leaves hl
  · exact heq.trans hs
  · exact hnone

/-! ### Any call -/

/-- What is returned to a caller agrees with what is left of it: it has lost the processor if it is to be rescheduled,
and goes on else. -/
def Disciplined (k : Kernel) (id : ThreadId) (c : ContextId) (r : CallReturn) (k' : Kernel) : Prop :=
  (r = .reschedule ∧ k'.current = none) ∨ (r ≠ .reschedule ∧ k.Proceeds k' id c)

theorem Disciplined.noted {r : CallReturn} (h : k.Disciplined id c r k') (hk : Noted k' k₁) : k.Disciplined id c r k₁ :=
  h.imp (fun ⟨hr, hnone⟩ => ⟨hr, by rw [hk]; exact hnone⟩) fun ⟨hr, hp⟩ => ⟨hr, hp.noted hk⟩

/-- The reply to a call agrees with what is left of the caller; an error lets it go on. -/
structure Obeys (k : Kernel) (id : ThreadId) (c : ContextId) (r : Reply CallReturn) : Prop where
  ok : ∀ a, r.result = .ok a → k.Disciplined id c a r.kernel
  error : ∀ e, r.result = .error e → k.Proceeds r.kernel id c

theorem Hosts.obeys_of_noted (h : k.Hosts id c) (hk : Noted k k') (e : KernelError) : k.Obeys id c (k'.refuse e) :=
  ⟨nofun, fun _ _ => h.proceeds_of_noted hk⟩

theorem returnFor_ne_reschedule {v : Int32} (hl : call.leaves = false)
    (hv : answer.value? = some v) : call.returnFor answer ≠ .reschedule := by
  unfold Syscall.returnFor
  rw [hl, hv, if_neg (by decide)]
  dsimp only
  split <;> nofun

/-- A thread cannot terminate or delete itself; it can exit, and then it is not to go on. -/
theorem Hosts.obeys_of_ends (h : k.Hosts id c) (hends : call.ends? k = some id)
    (howned : ∀ exitCode, call = .exitDeleteThread exitCode → k.Owned) :
    k.Obeys id c ((k.perform call).map call.returnFor) := by
  obtain ⟨t, ht, hd, -⟩ := h.occupies.holder
  obtain rfl := id_of_thread? ht
  have halive : t.status.dead = false := (Bool.or_eq_false_iff.mp hd).2
  have hother : ∃ e, k.onOther t.id terminateThread = k.refuse e := by
    unfold onOther terminateThread
    rw [if_pos h.current]
    split <;> exact ⟨_, rfl⟩
  cases call with
  | exitThread exitCode =>
    show k.Obeys t.id c (((k.exitCurrent exitCode).map fun _ => Answer.done).map _)
    rw [exitCurrent_eq h.current ht]
    exact ⟨fun a ha => Or.inl ⟨by cases ha; rfl, current_exit h.current halive exitCode⟩, nofun⟩
  | exitDeleteThread exitCode =>
    have hconserves : k.Conserves ((k.exitCurrent exitCode).andThen fun id k => k.deleteThread id) :=
      conserves_exitDelete (howned exitCode rfl)
    have hcurrent : ((k.exitCurrent exitCode).andThen fun id k => k.deleteThread id).kernel.current = none := by
      rw [exitCurrent_eq h.current ht]
      exact current_deleteThread (current_exit h.current halive exitCode) t.id
    show k.Obeys t.id c
      ((((k.exitCurrent exitCode).andThen fun id k => k.deleteThread id).map fun _ => Answer.done).map _)
    generalize (k.exitCurrent exitCode).andThen (fun id k => k.deleteThread id) = r at hconserves hcurrent
    obtain ⟨e, k', hk', -, rfl⟩ | ⟨a, k', -, rfl⟩ := hconserves
    · exact h.obeys_of_noted hk' e
    · exact ⟨fun a ha => Or.inl ⟨by cases ha; rfl, hcurrent⟩, nofun⟩
  | terminateThread x =>
    obtain rfl : x = t.id := Option.some.inj hends
    obtain ⟨e, heq⟩ := hother
    show k.Obeys t.id c (((k.onOther t.id terminateThread).map fun _ => Answer.done).map _)
    rw [heq]
    exact h.obeys_of_noted (.refl k) e
  | terminateDeleteThread x =>
    obtain rfl : x = t.id := Option.some.inj hends
    obtain ⟨e, heq⟩ := hother
    show k.Obeys t.id c
      ((((k.onOther t.id terminateThread).andThen fun _ k => k.deleteThread t.id).map fun _ => Answer.done).map _)
    rw [heq]
    exact h.obeys_of_noted (.refl k) e
  | deleteThread x =>
    obtain rfl : x = t.id := Option.some.inj hends
    show k.Obeys t.id c (((k.deleteDormant t.id).map fun _ => Answer.done).map _)
    unfold deleteDormant
    rw [if_pos (Or.inr h.current)]
    exact h.obeys_of_noted (.refl k) _
  | _ => cases hends

/-- **A call lets its caller go on, or says that it does not.** -/
theorem Hosts.obeys_perform (h : k.Hosts id c) (call : Syscall)
    (howned : ∀ exitCode, call = .exitDeleteThread exitCode → k.Owned) :
    k.Obeys id c ((k.perform call).map call.returnFor) := by
  by_cases hends : call.ends? k = some id
  · exact h.obeys_of_ends hends howned
  obtain ⟨hoccupies, hregisters⟩ := h.spares_perform call hends
  have hproceeds : (k.perform call).kernel.current = k.current → k.Proceeds (k.perform call).kernel id c :=
    fun hc => ⟨hc.trans h.current, hoccupies, hregisters⟩
  have hleaves : call.leaves = false := by
    cases call with
    | exitThread | exitDeleteThread => exact absurd h.current hends
    | _ => rfl
  -- A call that succeeds returns what its answer stands for.
  have hreply : ∀ a, ((k.perform call).map call.returnFor).result = .ok a →
      ∃ answer, (k.perform call).result = .ok answer ∧ call.returnFor answer = a := by
    intro a ha
    unfold Reply.map at ha
    cases hr : (k.perform call).result with
    | error e => rw [hr] at ha; cases ha
    | ok answer => rw [hr] at ha; cases ha; exact ⟨answer, rfl, rfl⟩
  cases hblock : call.mayBlock with
  | false =>
    have hcurrent : (k.perform call).kernel.current = k.current := by
      refine current_perform h.started _ hblock fun x hx hcur => hends ?_
      rw [hx, ← h.current, hcur]
    refine ⟨fun a ha => Or.inr ⟨?_, hproceeds hcurrent⟩, fun e _ => hproceeds hcurrent⟩
    obtain ⟨answer, hr, rfl⟩ := hreply a ha
    obtain ⟨v, hv⟩ := value?_perform hblock hr
    exact returnFor_ne_reschedule hleaves hv
  | true =>
    obtain ⟨r, heq, hseats⟩ := seats_perform h.started hblock
    have hresult : (k.perform call).result = r.result.map .outcome := congrArg Reply.result heq
    have hkernel : (k.perform call).kernel = r.kernel := congrArg Reply.kernel heq
    obtain ⟨hblocked, hnone⟩ | ⟨hgoes, hcurrent⟩ := hseats
    · rw [hblocked] at hresult
      refine ⟨fun a ha => Or.inl ⟨?_, hkernel ▸ hnone⟩, fun e he => ?_⟩
      · obtain ⟨answer, hr, rfl⟩ := hreply a ha
        obtain rfl := Except.ok.inj (hresult.symm.trans hr)
        unfold Syscall.returnFor
        split <;> rfl
      · unfold Reply.map at he
        rw [hresult] at he
        cases he
    · rw [← hkernel] at hcurrent
      refine ⟨fun a ha => Or.inr ⟨?_, hproceeds hcurrent⟩, fun e _ => hproceeds hcurrent⟩
      obtain ⟨answer, hr, rfl⟩ := hreply a ha
      rw [hresult] at hr
      cases ho : r.result with
      | error e => rw [ho] at hr; cases hr
      | ok outcome =>
        rw [ho] at hr
        cases hr
        cases outcome with
        | blocked => exact absurd ho hgoes
        | completed v => exact returnFor_ne_reschedule hleaves rfl

end Kernel

/-! ### Calls by number -/

/-- Only one number stands for the exit of a thread that deletes itself. -/
theorem CallEntry.exitDelete_of_mem : ∀ e ∈ callTable, e.nid = 0x809CE29B ∨
    e.Only fun call => ∀ exitCode, call ≠ .exitDeleteThread exitCode := by
  unfold callTable
  repeat' refine List.forall_mem_cons.mpr ⟨?_, ?_⟩
  all_goals first
    | exact Or.inl rfl
    | exact Or.inr (only_plain nofun)
    | exact Or.inr (only_named nofun)
    | exact Or.inr only_known
    | exact nofun

namespace Kernel

variable {k k' : Kernel} {id : ThreadId} {c : ContextId} {nid : UInt32}

theorem Noted.noteIf (k : Kernel) (trace : Bool) (e : Event) : Noted k (k.noteIf trace e) := by
  unfold Kernel.noteIf
  split
  · exact .note k e
  · exact .refl k

/-- An entry of the table decodes its arguments and then makes the call, or fails and lets the caller go on. -/
theorem Hosts.obeys_runEntry (h : k.Hosts id c) (decode : Arguments → Memory → Except Fault Syscall)
    (arguments : Arguments) (howned : ∀ call exitCode, decode arguments k.memory = .ok call →
      call = .exitDeleteThread exitCode → k.Owned) : k.Obeys id c (k.runEntry decode arguments) := by
  unfold runEntry
  split
  · next f _ => exact h.obeys_of_noted (.note k _) _
  · next call hcall => exact h.obeys_perform call fun exitCode heq => howned call exitCode hcall heq

/-- **What handling a call returns agrees with what is left of its caller.** -/
theorem Hosts.disciplined_handle (h : k.Hosts id c) (howned : nid = 0x809CE29B → k.Owned) (trace : Bool)
    (arguments : Arguments) : k.Disciplined id c (k.handle trace nid arguments).1 (k.handle trace nid arguments).2 := by
  have hvalue : ∀ v k', Noted k k' → k.Disciplined id c (.value v) k' :=
    fun v k' hk' => Or.inr ⟨nofun, h.proceeds_of_noted hk'⟩
  unfold handle
  split
  · exact hvalue _ _ (.note k _)
  · next entry hentry =>
    split
    · exact hvalue _ _ (.note k _)
    · next decode hdecode =>
      have hexit : ∀ call exitCode memory, decode arguments memory = .ok call → call = .exitDeleteThread exitCode →
          k.Owned := by
        intro call exitCode memory hcall heq
        refine howned ?_
        have hnid : (entry.nid == nid) = true := List.find?_some (p := fun e : CallEntry => e.nid == nid) hentry
        rw [← beq_iff_eq.mp hnid]
        refine (CallEntry.exitDelete_of_mem entry (List.mem_of_find?_eq_some hentry)).resolve_right fun honly => ?_
        exact honly decode hdecode arguments memory call hcall exitCode heq
      -- With tracing on, the call starts from a kernel that has noted it.
      have hobeys : k.Obeys id c
          ((k.noteIf trace (.callEntered entry.name arguments.toList)).runEntry decode arguments) := by
        unfold noteIf
        split
        · have hnoted := (h.note (e := .callEntered entry.name arguments.toList) rfl).obeys_runEntry decode arguments
            fun call exitCode hcall heq =>
              (hexit call exitCode _ hcall heq).sameTenure (Noted.sameTenure (.note k _))
          exact ⟨fun a ha => (hnoted.ok a ha).imp_right fun ⟨hr, hp⟩ => ⟨hr, hp.current, hp.occupies, hp.registers⟩,
            fun e he => ⟨(hnoted.error e he).current, (hnoted.error e he).occupies, (hnoted.error e he).registers⟩⟩
        · exact h.obeys_runEntry decode arguments fun call exitCode hcall heq => hexit call exitCode _ hcall heq
      generalize (k.noteIf trace (.callEntered entry.name arguments.toList)).runEntry decode arguments = reply at hobeys
      obtain ⟨result, k'⟩ := reply
      cases result with
      | ok a => exact (hobeys.ok a rfl).noted (.noteIf k' trace _)
      | error e => exact Or.inr ⟨nofun, (hobeys.error e rfl).noted (.note k' _)⟩

/-- A thread goes on after a call: it is on the processor with its live context, which has the result in `v0` and all
else that was in its registers. -/
structure GoesOn (k : Kernel) (id : ThreadId) (c : ContextId) (v : Int32) (k' : Kernel) : Prop where
  current : k'.current = some id
  context : k'.contextOf? id = some c
  live : (k'.contexts.get? c).isSome = true
  result : k'.contexts.register c Register.v0 = v.toUInt32
  registers : ∀ i, i ≠ Register.v0.val → k'.contexts.register c i = k.contexts.register c i

/-- The value that a call returns is put into `v0` of the caller's context. -/
theorem Proceeds.goesOn (h : k.Proceeds k' id c) (v : Int32) :
    k.GoesOn id c v (k'.setRegister c Register.v0 v.toUInt32) where
  current := h.current
  context := h.occupies.contextOf?
  live := (isSome_get?_setRegister k'.contexts c _ _ c).trans h.occupies.live
  result := (Contexts.register_setRegister_self h.occupies.live Register.v0.isLt _ _).trans (if_pos rfl)
  registers i hi := (register_setRegister_other k'.contexts c _ c hi).trans (h.registers i hi)

/-- **A call by number lets its caller go on with what it returns, or returns that it does not.** -/
theorem Hosts.call (h : k.Hosts id c) (howned : nid = 0x809CE29B → k.Owned) (trace : Bool) :
    ((k.call trace nid).1 = .reschedule ↔ (k.call trace nid).2.current = none) ∧
      ((k.call trace nid).1 ≠ .reschedule → ∃ v, ((k.call trace nid).1 = .value v ∨ (k.call trace nid).1 = .yield v) ∧
        k.GoesOn id c v (k.call trace nid).2) := by
  have hcontext : (k.thread? id).bind (·.context) = some c := h.context
  have hdisciplined := h.disciplined_handle howned trace (k.argumentsOf c)
  unfold Kernel.call
  rw [h.current]
  dsimp only
  rw [hcontext]
  dsimp only
  generalize k.handle trace nid (k.argumentsOf c) = reply at hdisciplined
  obtain ⟨r, k'⟩ := reply
  obtain ⟨rfl, hnone⟩ | ⟨hr, hproceeds⟩ := hdisciplined
  · exact ⟨iff_of_true rfl hnone, fun hne => absurd rfl hne⟩
  · have hgoes := hproceeds.goesOn
    cases r with
    | value v =>
      refine ⟨iff_of_false nofun fun hnone => ?_, fun _ => ⟨v, Or.inl rfl, hgoes v⟩⟩
      cases hnone.symm.trans (hgoes v).current
    | yield v =>
      refine ⟨iff_of_false nofun fun hnone => ?_, fun _ => ⟨v, Or.inr rfl, hgoes v⟩⟩
      cases hnone.symm.trans (hgoes v).current
    | reschedule => exact absurd rfl hr

/-! ### Runs -/

/-- The writes of the guest to all registers of a context. -/
def loadAll (c : ContextId) (registers : Registers) : List Operation :=
  (List.finRange 32).map fun (i : Fin 32) => .guestRegister c i (registers.get i)

/-- Loading the registers one by one sets them all. -/
theorem run_loadAll (k : Kernel) (c : ContextId) (registers : Registers) :
    k.run (loadAll c registers) = k.setRegisters c registers := by
  unfold loadAll setRegisters
  generalize List.finRange 32 = indices
  induction indices generalizing k with
  | nil => rfl
  | cons i rest ih => exact ih _

/-- Filling registers hands out no ids. -/
theorem handedOut_loadAll (k : Kernel) (c : ContextId) (registers : Registers) :
    k.handedOut (loadAll c registers) = 0 := by
  unfold loadAll
  generalize List.finRange 32 = indices
  induction indices generalizing k with
  | nil => rfl
  | cons i rest ih =>
    have hstays : (k.after (.guestRegister c i (registers.get i))).nextId = k.nextId := rfl
    show (if _ then 0 else 1) + _ = 0
    rw [if_pos hstays, ih]

/-- A run leads to a kernel with the caller on the processor. -/
theorem hosts_run {config : KernelConfig} {memory : Memory} {operations : List Operation}
    (hids : (Kernel.new config memory).handedOut operations < 2 ^ 32 - 1)
    (hcurrent : ((Kernel.new config memory).run operations).current = some id)
    (hcontext : ((Kernel.new config memory).run operations).contextOf? id = some c) :
    ((Kernel.new config memory).run operations).Hosts id c :=
  have hleased := leased_run config memory operations hids
  ⟨hleased.1, hleased.2, nodup_started_run config memory operations, hcurrent, hcontext⟩

/-- **What a system call returns agrees with what it leaves of its caller.** In every kernel that operations lead to,
with a thread on the processor, whatever its registers hold, and for every number: a call returns that the caller is to
be rescheduled if and only if nobody is on the processor any more. Else it returns a value, with or without a yield; the
caller is still there with its context, which is live, has the value in `v0` and all its other registers as they were. For
the exit that deletes the caller this takes partitions that end within the address space. -/
theorem callReturns_run (config : KernelConfig) (memory : Memory) (operations : List Operation)
    (hids : (Kernel.new config memory).handedOut operations < 2 ^ 32 - 1) (id : ThreadId) (c : ContextId)
    (hcurrent : ((Kernel.new config memory).run operations).current = some id)
    (hcontext : ((Kernel.new config memory).run operations).contextOf? id = some c) (registers : Registers)
    (nid : UInt32) (hconfig : nid = 0x809CE29B → ∀ p ∈ config.partitions, p.base.toNat + p.size.toNat < 2 ^ 32)
    (trace : Bool) :
    let k := ((Kernel.new config memory).run operations).setRegisters c registers
    ((k.call trace nid).1 = .reschedule ↔ (k.call trace nid).2.current = none) ∧
      ((k.call trace nid).1 ≠ .reschedule → ∃ v, ((k.call trace nid).1 = .value v ∨ (k.call trace nid).1 = .yield v) ∧
        k.GoesOn id c v (k.call trace nid).2) := by
  have hload := Reloads.setRegisters ((Kernel.new config memory).run operations) c registers
  have hcontext' : (((Kernel.new config memory).run operations).setRegisters c registers).contextOf? id = some c := by
    unfold contextOf?
    rw [hload.thread?]
    exact hcontext
  have hrun : ((Kernel.new config memory).run operations).setRegisters c registers =
      (Kernel.new config memory).run (operations ++ loadAll c registers) := by
    rw [run_append, run_loadAll]
  have hids' : (Kernel.new config memory).handedOut (operations ++ loadAll c registers) < 2 ^ 32 - 1 := by
    rw [handedOut_append, handedOut_loadAll]
    exact hids
  have hcurrent' := hload.current.trans hcurrent
  rw [hrun] at hcurrent' hcontext' ⊢
  exact (hosts_run hids' hcurrent' hcontext').call (fun hnid => (reachable_owned (hconfig hnid) hids').2) trace

/-- A callback interrupts the sleep of a thread. -/
def callbackInSleep : List Operation := interruptedSleep.dropLast

/-- The thread, named by the 1 in all of its registers, wakes itself up from within the callback: it yields and goes on
with 0. -/
theorem callReturns_run_callbackInSleep :
    let k := ((Kernel.new {} {}).run callbackInSleep).setRegisters 1 (Vector.replicate 32 1)
    (Kernel.new {} {}).handedOut callbackInSleep < 2 ^ 32 - 1 ∧
      ((Kernel.new {} {}).run callbackInSleep).current = some 1 ∧
      ((Kernel.new {} {}).run callbackInSleep).contextOf? 1 = some 1 ∧
      (k.call false 0xD59EAD2F).1 = .yield 0 ∧
      ((k.call false 0xD59EAD2F).1 = .reschedule ↔ (k.call false 0xD59EAD2F).2.current = none) ∧
      k.GoesOn 1 1 0 (k.call false 0xD59EAD2F).2 := by
  have hids : (Kernel.new {} {}).handedOut callbackInSleep < 2 ^ 32 - 1 := handedOut_lt (by decide)
  have hcurrent : ((Kernel.new {} {}).run callbackInSleep).current = some 1 := by decide +kernel
  have hcontext : ((Kernel.new {} {}).run callbackInSleep).contextOf? 1 = some 1 := by decide +kernel
  have hyield : ((((Kernel.new {} {}).run callbackInSleep).setRegisters 1 (Vector.replicate 32 1)).call false
      0xD59EAD2F).1 = .yield 0 := by decide +kernel
  have hreturns := callReturns_run {} {} callbackInSleep hids 1 1 hcurrent hcontext (Vector.replicate 32 1) 0xD59EAD2F
    (fun hnid => absurd hnid (by decide)) false
  refine ⟨hids, hcurrent, hcontext, hyield, ?_⟩
  dsimp only at hreturns
  generalize ((Kernel.new {} {}).run callbackInSleep).setRegisters 1 (Vector.replicate 32 1) = k at hyield hreturns ⊢
  obtain ⟨hiff, hgoes⟩ := hreturns
  rw [hyield] at hgoes
  obtain ⟨v, hv | hv, hon⟩ := hgoes nofun
  · cases hv
  · cases hv
    exact ⟨hiff, hon⟩

/-- A partition whose last half lies beyond the address space. -/
def beyondAddresses : KernelConfig := { partitions := [⟨2, "top", 0xFFFFF000, 0x2000⟩], tlsSize := 0x1000 }

def loneThread : List Operation :=
  [.syscall (.createThread "worker" 0x08900000 32 0x1000 0), .syscall (.startThread 1 0 0), .dispatch]

/-- There the thread-local block takes the place of the stack. The thread that exits to be deleted is dead when its
blocks cannot both be freed, and the call returns a value although nobody is on the processor. -/
theorem exitDelete_returns_value :
    (Kernel.new beyondAddresses {}).handedOut loneThread < 2 ^ 32 - 1 ∧
      ((Kernel.new beyondAddresses {}).run loneThread).current = some 1 ∧
      ((Kernel.new beyondAddresses {}).run loneThread).contextOf? 1 = some 1 ∧
      (((Kernel.new beyondAddresses {}).run loneThread).call false 0x809CE29B).1 =
        .value (KernelError.illegalMemoryBlock 0).code ∧
      ¬ ((((Kernel.new beyondAddresses {}).run loneThread).call false 0x809CE29B).1 = .reschedule ↔
        (((Kernel.new beyondAddresses {}).run loneThread).call false 0x809CE29B).2.current = none) := by
  refine ⟨handedOut_lt (by decide), ?_⟩
  decide +kernel

end Kernel
end GuestKernel
