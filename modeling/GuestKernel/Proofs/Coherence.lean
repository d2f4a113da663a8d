/-
# The scheduler is coherent

The status of a thread, the ready queue and the running thread say the same thing at all times.

| status | ready queue | running thread |
| --- | --- | --- |
| running | not in it | it is the thread |
| ready | once, under its priority | not the thread |
| any other | not in it | not the thread |

The one exception is a callback that interrupts a wait: its thread is on the processor and goes on waiting, and if the
wait ends meanwhile, it is ready and queued, until the callback returns.

`Coherent` is kept by each move (`Coherent.step`), for moves that make an object under an id that is not taken, and so
by every operation and every run that does not use up the ids (`coherent_run`).

Source: specification, 3 and 4.3.
-/

import GuestKernel.Proofs.ObjectMoves
import GuestKernel.Proofs.ReadyOrder

namespace GuestKernel

/-- The statuses that a thread can have. -/
def ThreadStatus.legal : List ThreadStatus :=
  [onlyStopped, onlyReady, onlyRunning, onlyWaiting, onlySuspended, waitSuspended, onlyDead]

/-- A thread whose record fits its status. -/
structure Thread.Sound (t : Thread) : Prop where
  status : t.status ∈ ThreadStatus.legal
  wait : t.wait.isSome = true ↔ t.status.waiting = true
  priority : minPriority ≤ t.priority ∧ t.priority ≤ maxPriority
  context : t.isDormant = false → t.context.isSome = true

namespace Thread.Sound

variable {t : Thread}

variable (h : t.Sound)

include h

theorem wait_eq_none (hw : t.status.waiting = false) : t.wait = none :=
  Option.not_isSome_iff_eq_none.mp fun hsome => Bool.noConfusion (hw.symm.trans (h.wait.mp hsome))

theorem of_waiting (hw : t.status.waiting = true) : t.status = .onlyWaiting ∨ t.status = .waitSuspended := by
  have hlegal : ∀ s ∈ ThreadStatus.legal, s.waiting = true → s = .onlyWaiting ∨ s = .waitSuspended := by decide
  exact hlegal t.status h.status hw

theorem of_suspended (hs : t.status.suspended = true) : t.status = .onlySuspended ∨ t.status = .waitSuspended := by
  have hlegal : ∀ s ∈ ThreadStatus.legal, s.suspended = true → s = .onlySuspended ∨ s = .waitSuspended := by
    decide
  exact hlegal t.status h.status hs

theorem of_stopped (hs : t.status.stopped = true) : t.status = .onlyStopped := by
  have hlegal : ∀ s ∈ ThreadStatus.legal, s.stopped = true → s = .onlyStopped := by decide
  exact hlegal t.status h.status hs

theorem of_dead (hd : t.status.dead = true) : t.status = .onlyDead := by
  have hlegal : ∀ s ∈ ThreadStatus.legal, s.dead = true → s = .onlyDead := by decide
  exact hlegal t.status h.status hd

/-- A started thread that is not held is ready, running or waiting. -/
theorem of_active (hd : t.isDormant = false) (hs : t.status.suspended = false) :
    t.status = .onlyReady ∨ t.status = .onlyRunning ∨ t.status = .onlyWaiting := by
  have hlegal : ∀ s ∈ ThreadStatus.legal, s.dormant = false → s.suspended = false →
      s = .onlyReady ∨ s = .onlyRunning ∨ s = .onlyWaiting := by decide
  exact hlegal t.status h.status hd hs

/-- The end of a wait, as the status shows it. -/
theorem unparks (hw : t.wait.isSome = true) : t.status = .onlyWaiting ∧ t.status.unpark = .onlyReady ∨
      t.status = .waitSuspended ∧ t.status.unpark = .onlySuspended := by
  rcases h.of_waiting (h.wait.mp hw) with hs | hs <;> rw [hs]
  · exact Or.inl ⟨rfl, rfl⟩
  · exact Or.inr ⟨rfl, rfl⟩

/-- A thread that waits has been started, and so has a context. -/
theorem context_of_wait (hw : t.wait.isSome = true) : ∃ c, t.context = some c := by
  refine Option.isSome_iff_exists.mp (h.context ?_)
  unfold Thread.isDormant
  obtain ⟨hs, -⟩ | ⟨hs, -⟩ := h.unparks hw <;> rw [hs] <;> rfl

/-- A thread whose wait ends is as sound as before. -/
theorem unpark (hw : t.wait.isSome = true) (result : Int32) : (t.unpark result).Sound := by
  have hcontext := Option.isSome_iff_exists.mpr (h.context_of_wait hw)
  have hstatus : (t.unpark result).status = .onlyReady ∨ (t.unpark result).status = .onlySuspended :=
    (h.unparks hw).imp And.right And.right
  refine ⟨?_, ⟨nofun, fun hyes => ?_⟩, h.priority, fun _ => hcontext⟩
  · rcases hstatus with hs | hs <;> rw [hs] <;> decide
  · rcases hstatus with hs | hs <;> rw [hs] at hyes <;> cases hyes

/-- A thread with another status that waits as much as before. -/
theorem restatus {status : ThreadStatus} (hs : status ∈ ThreadStatus.legal)
    (hw : status.waiting = t.status.waiting) (hd : t.isDormant = false) : ({ t with status } : Thread).Sound where
  status := hs
  wait := h.wait.trans (by rw [hw])
  priority := h.priority
  context _ := h.context hd

end Thread.Sound

namespace Kernel

variable {k k' : Kernel} {id : ThreadId} {t : Thread} {o o' : Object} {priority : UInt32} {d : Delivery}

/-- A callback interrupts a wait of the thread. -/
def deliversFromWait (k : Kernel) (id : ThreadId) : Bool :=
  match k.delivering with
  | some d => d.fromWait && d.thread == id
  | none => false

/-- The threads, the ready queue and the processor agree. -/
structure Coherent (k : Kernel) : Prop where
  /-- The queue holds each ready thread once and nobody else, by ascending priority, under its priority. -/
  ready : k.ready.Lists k.thread?
  threads : ∀ id t, k.thread? id = some t → t.Sound
  running : ∀ id t, k.thread? id = some t → t.status = .onlyRunning → k.current = some id
  /-- The thread on the processor exists and runs, unless a callback interrupts its wait. -/
  current : ∀ id, k.current = some id → ∃ t, k.thread? id = some t ∧
    if k.deliversFromWait id then t.status = .onlyWaiting ∨ t.status = .onlyReady else t.status = .onlyRunning
  delivering : ∀ d, k.delivering = some d → k.current = none ∨ k.current = some d.thread
  /-- No thread was queued twice, and none in the queue was unknown or without a context. -/
  calm : ∀ e ∈ k.journal, e.misqueued = false

/-- Every registered id is below the next one. -/
def IdsBelow (k : Kernel) : Prop := ∀ id, id.toNat < k.nextId.toNat ∨ k.objects.get? id = none

/-- At most the journal differs, and the order of ready threads of one priority. -/
structure Alike (k k' : Kernel) : Prop where
  config : k'.config = k.config
  memory : k'.memory = k.memory
  contexts : k'.contexts = k.contexts
  objects : k'.objects = k.objects
  partitions : k'.partitions = k.partitions
  started : k'.started = k.started
  ready : k.ready.Alike k'.ready
  current : k'.current = k.current
  clock : k'.clock = k.clock
  delivering : k'.delivering = k.delivering

/-! ### Changes of no thread's status -/

theorem calm_of_isAlarm (hcalm : ∀ e ∈ k.journal, e.misqueued = false)
    (hnew : ∀ e ∈ k'.journal, e ∈ k.journal ∨ e.isAlarm = false) : ∀ e ∈ k'.journal, e.misqueued = false := by
  intro e he
  rcases hnew e he with he | he
  · exact hcalm e he
  · exact (Bool.or_eq_false_iff.mp he).1

/-- Statuses and the processor stay, and the queue is in order. -/
theorem Coherent.of_statuses (h : k.Coherent)
    (hview : ∀ x, (k'.thread? x).map (·.status) = (k.thread? x).map (·.status)) (hready : k'.ready.Lists k'.thread?)
    (hthreads : ∀ id t, k'.thread? id = some t → t.Sound) (hcurrent : k'.current = k.current)
    (hdelivering : k'.delivering = k.delivering) (hcalm : ∀ e ∈ k'.journal, e.misqueued = false) : k'.Coherent where
  ready := hready
  threads := hthreads
  running id t' ht' hs := by
    have hv := hview id
    rw [ht', Option.map_some, eq_comm, Option.map_eq_some_iff] at hv
    obtain ⟨t, ht, heq⟩ := hv
    exact hcurrent.trans (h.running id t ht (heq.trans hs))
  current id hc := by
    obtain ⟨t, ht, hs⟩ := h.current id (hcurrent ▸ hc)
    have hv := hview id
    rw [ht, Option.map_some, Option.map_eq_some_iff] at hv
    obtain ⟨t', ht', heq⟩ := hv
    refine ⟨t', ht', ?_⟩
    unfold deliversFromWait at hs ⊢
    rw [hdelivering, heq]
    exact hs
  delivering d hd := by
    rw [hcurrent]
    exact h.delivering d (hdelivering ▸ hd)
  calm := hcalm

/-- Statuses, priorities and the scheduler stay. -/
theorem Coherent.congr (h : k.Coherent)
    (hview : ∀ x, (k'.thread? x).map (fun t => (t.status, t.priority)) =
      (k.thread? x).map fun t => (t.status, t.priority))
    (hthreads : ∀ id t, k'.thread? id = some t → t.Sound) (hready : k'.ready = k.ready)
    (hcurrent : k'.current = k.current) (hdelivering : k'.delivering = k.delivering)
    (hcalm : ∀ e ∈ k'.journal, e.misqueued = false) : k'.Coherent := by
  refine h.of_statuses (fun x => ?_) (hready ▸ h.ready.congr hview) hthreads hcurrent hdelivering hcalm
  have hstatus := congrArg (Option.map Prod.fst) (hview x)
  rwa [Option.map_map, Option.map_map] at hstatus

/-- No thread changes, nor does the scheduler. -/
theorem Coherent.of_threads (h : k.Coherent) (hview : ∀ x, k'.thread? x = k.thread? x) (hready : k'.ready = k.ready)
    (hcurrent : k'.current = k.current) (hdelivering : k'.delivering = k.delivering)
    (hcalm : ∀ e ∈ k'.journal, e.misqueued = false) : k'.Coherent :=
  h.congr (fun x => by rw [hview x]) (fun id t ht => h.threads id t (hview id ▸ ht)) hready hcurrent hdelivering
    hcalm

theorem Coherent.sameObjects (h : k.Coherent) (hs : SameObjects k k') : k'.Coherent :=
  h.of_threads hs.thread? hs.ready hs.current hs.delivering (calm_of_isAlarm h.calm hs.calm)

/-- A thread changes in something else than its status and its priority. -/
theorem Coherent.putThread (h : k.Coherent) (t' : Thread) (ht : k.thread? t'.id = some t)
    (hstatus : t'.status = t.status) (hpriority : t'.priority = t.priority) (hsound : t'.Sound) :
    (k.putThread t').Coherent := by
  refine h.congr (fun x => ?_) (fun x t₁ hx => ?_) rfl rfl rfl h.calm
  · rw [thread?_putThread]
    split
    · next hx => rw [← hx, ht, Option.map_some, Option.map_some, hstatus, hpriority]
    · rfl
  · rw [thread?_putThread] at hx
    split at hx
    · cases hx
      exact hsound
    · exact h.threads x t₁ hx

/-- An object other than a thread changes. -/
theorem Coherent.put (h : k.Coherent) (ho : k.objects.get? o.id = some o) (hk : o.kind ≠ .thread)
    (hid : o'.id = o.id) (hk' : o'.kind = o.kind) : (k.put o').Coherent :=
  h.of_threads (thread?_put_of_kind_ne o' ho hk hid hk') rfl rfl rfl h.calm

theorem Coherent.detach (h : k.Coherent) (id : ThreadId) (w : Wait) : (k.detach id w).Coherent := by
  obtain heq | ⟨e, he, heq⟩ | ⟨o, ho, -, -, -, heq⟩ := detach_cases k id w <;> rw [heq]
  · exact h
  · exact h.sameObjects (Quiet.note k he).toSameObjects
  · have hid := ObjectTable.id_of_get? ho
    by_cases hk : o.kind = .thread
    · obtain ⟨t, rfl⟩ : ∃ t, o = .thread t := by
        cases o <;> first | exact ⟨_, rfl⟩ | cases hk
      have ht : k.thread? t.id = some t := by
        rw [← hid] at ho
        exact ObjectTable.thread?_eq_some.mpr ho
      have hs := h.threads t.id t ht
      exact h.putThread { t with exitWaiters := t.exitWaiters.filter (· != id) } ht rfl rfl
        ⟨hs.status, hs.wait, hs.priority, hs.context⟩
    · exact h.put (hid.symm ▸ ho) hk (Object.id_removeWaiter o id) (Object.kind_removeWaiter o id)

/-! ### Changes of one thread's status -/

/-- One thread changes its status, and with it the queue and the processor. -/
theorem Coherent.replace (h : k.Coherent) (id : ThreadId) (hview : ∀ x, x ≠ id → k'.thread? x = k.thread? x)
    (hlists : k'.ready.Lists k'.thread?) (hsound : ∀ t, k'.thread? id = some t → t.Sound)
    (hrunning : ∀ t, k'.thread? id = some t → t.status = .onlyRunning → k'.current = some id)
    (hkeep : ∀ x, x ≠ id → (k'.current = some x ↔ k.current = some x))
    (hcurrent : k'.current = some id → ∃ t, k'.thread? id = some t ∧
      if k'.deliversFromWait id then t.status = .onlyWaiting ∨ t.status = .onlyReady else t.status = .onlyRunning)
    (hdelivering : k'.delivering = k.delivering) (hleaves : k'.current = k.current ∨ k'.current = none ∨ k.delivering = none)
    (hcalm : ∀ e ∈ k'.journal, e.misqueued = false) : k'.Coherent where
  ready := hlists
  threads x t hx := by
    by_cases hxid : x = id
    · subst hxid
      exact hsound t hx
    · exact h.threads x t (hview x hxid ▸ hx)
  running x t hx hs := by
    by_cases hxid : x = id
    · subst hxid
      exact hrunning t hx hs
    · exact (hkeep x hxid).mpr (h.running x t (hview x hxid ▸ hx) hs)
  current x hx := by
    by_cases hxid : x = id
    · subst hxid
      exact hcurrent hx
    · obtain ⟨t, ht, hs⟩ := h.current x ((hkeep x hxid).mp hx)
      refine ⟨t, (hview x hxid).trans ht, ?_⟩
      unfold deliversFromWait at hs ⊢
      rw [hdelivering]
      exact hs
  delivering d hd := by
    rw [hdelivering] at hd
    obtain heq | heq | heq := hleaves
    · exact heq ▸ h.delivering d hd
    · exact Or.inl heq
    · rw [heq] at hd
      cases hd
  calm := hcalm

theorem deliversFromWait_of_none (hd : k.delivering = none) : k.deliversFromWait id = false := by
  unfold deliversFromWait
  rw [hd]

/-- Without a delivery the thread on the processor runs. -/
theorem Coherent.runs (h : k.Coherent) (hd : k.delivering = none) (hc : k.current = some id)
    (ht : k.thread? id = some t) : t.status = .onlyRunning := by
  obtain ⟨t', ht', hs⟩ := h.current id hc
  rw [deliversFromWait_of_none hd, if_neg (by decide)] at hs
  rw [ht, Option.some.injEq] at ht'
  rw [ht']
  exact hs

/-- A thread that neither runs, waits nor is ready is not on the processor. -/
theorem Coherent.not_current (h : k.Coherent) (ht : k.thread? id = some t)
    (hs : t.status ∉ [ThreadStatus.onlyRunning, .onlyWaiting, .onlyReady]) : k.current ≠ some id := by
  intro hc
  obtain ⟨t', ht', hs'⟩ := h.current id hc
  rw [ht, Option.some.injEq] at ht'
  rw [← ht'] at hs'
  split at hs'
  · rcases hs' with hs' | hs' <;> rw [hs'] at hs <;> exact hs (by decide)
  · rw [hs'] at hs
    exact hs (by decide)

theorem Coherent.current_registered (h : k.Coherent) (hnone : k.thread? id = none) : k.current ≠ some id := by
  intro hc
  obtain ⟨t, ht, -⟩ := h.current id hc
  rw [hnone] at ht
  cases ht

/-- Queueing a thread that has become ready. -/
theorem lists_schedule {view : ThreadId → Option Thread} (id : ThreadId) (h : k.ready.Lists view)
    (hview : ∀ x, x ≠ id → k.thread? x = view x) (h₀ : ∀ t, view id = some t → t.status ≠ .onlyReady)
    (ht : k.thread? id = some t) (hr : t.status = .onlyReady) :
    (k.schedule id t.priority).ready.Lists k.thread? ∧
      ∀ e ∈ (k.schedule id t.priority).journal, e ∈ k.journal ∨ e.isAlarm = false := by
  obtain ⟨q, hq, hlists⟩ := h.insert hview h₀ ht hr
  have hcalm := calm_noteAll k (isAlarm_insertEvents k.ready id t.priority)
  unfold schedule
  rw [hq]
  exact ⟨hlists, hcalm⟩

/-- A thread becomes ready and is queued. -/
theorem Coherent.queue (h : k.Coherent) (hview : ∀ x, x ≠ id → k'.thread? x = k.thread? x)
    (ht : k'.thread? id = some t) (hr : t.status = .onlyReady) (hsound : t.Sound)
    (h₀ : ∀ t, k.thread? id = some t → t.status ≠ .onlyReady) (hready : k'.ready = k.ready)
    (hkeep : ∀ x, x ≠ id → (k'.current = some x ↔ k.current = some x))
    (hcurrent : k'.current = some id → k'.deliversFromWait id = true)
    (hdelivering : k'.delivering = k.delivering)
    (hleaves : k'.current = k.current ∨ k'.current = none ∨ k.delivering = none)
    (hcalm : ∀ e ∈ k'.journal, e.misqueued = false) : (k'.schedule id t.priority).Coherent := by
  obtain ⟨hlists, hnew⟩ := lists_schedule id (hready ▸ h.ready) hview h₀ ht hr
  have hview' : ∀ x, (k'.schedule id t.priority).thread? x = k'.thread? x := thread?_schedule k' id t.priority
  refine h.replace id (fun x hx => (hview' x).trans (hview x hx)) ?_ (fun t' ht' => ?_) (fun t' ht' hrun => ?_)
    (fun x hx => ?_) (fun hc => ⟨t, (hview' id).trans ht, ?_⟩) ?_ ?_ (calm_of_isAlarm hcalm hnew)
  · rw [show (k'.schedule id t.priority).thread? = k'.thread? from funext hview']
    exact hlists
  · rw [hview', ht, Option.some.injEq] at ht'
    exact ht' ▸ hsound
  · rw [hview', ht, Option.some.injEq] at ht'
    rw [← ht', hr] at hrun
    cases hrun
  · rw [current_schedule]
    exact hkeep x hx
  · rw [current_schedule] at hc
    have hfrom : (k'.schedule id t.priority).deliversFromWait id = true := by
      unfold deliversFromWait
      rw [delivering_schedule]
      exact hcurrent hc
    rw [if_pos hfrom]
    exact Or.inr hr
  · rw [delivering_schedule, hdelivering]
  · rw [current_schedule]
    exact hleaves

/-- A thread leaves the ready queue, or was not in it, and does not run. -/
theorem Coherent.dequeue (h : k.Coherent) (id : ThreadId) (hview : ∀ x, x ≠ id → k'.thread? x = k.thread? x)
    (ht : ∀ t, k'.thread? id = some t → t.Sound ∧ t.status ≠ .onlyReady ∧ t.status ≠ .onlyRunning)
    (hready : k'.ready = k.ready.remove id ∨
      (k'.ready = k.ready ∧ ∀ t, k.thread? id = some t → t.status ≠ .onlyReady))
    (hkeep : ∀ x, x ≠ id → (k'.current = some x ↔ k.current = some x)) (hcurrent : k'.current ≠ some id)
    (hdelivering : k'.delivering = k.delivering)
    (hleaves : k'.current = k.current ∨ k'.current = none ∨ k.delivering = none)
    (hcalm : ∀ e ∈ k'.journal, e.misqueued = false) : k'.Coherent := by
  refine h.replace id hview ?_ (fun t h' => (ht t h').1) (fun t h' hr => absurd hr (ht t h').2.2) hkeep
    (fun hc => absurd hc hcurrent) hdelivering hleaves hcalm
  obtain heq | ⟨heq, h₀⟩ := hready <;> rw [heq]
  · exact h.ready.remove hview fun t h' => (ht t h').2.1
  · exact h.ready.keep hview h₀ fun t h' => (ht t h').2.1

/-! ### The moves -/

theorem launch_eq (k : Kernel) (t : Thread) (context : ContextId) : ∃ started, k.launch t context =
    ({ k.putThread { t with context := some context, status := .onlyReady } with started } : Kernel).schedule
      t.id t.priority := by
  unfold Kernel.launch
  dsimp only
  split
  · exact ⟨_, rfl⟩
  · exact ⟨_, rfl⟩

/-- A started thread is ready. -/
theorem Coherent.launch (h : k.Coherent) (ht : k.thread? t.id = some t) (hs : t.status = .onlyStopped)
    (context : ContextId) : (k.launch t context).Coherent := by
  have hsound := h.threads t.id t ht
  have hc : k.current ≠ some t.id := h.not_current ht (by rw [hs]; decide)
  let t' : Thread := { t with context := some context, status := .onlyReady }
  have hsound' : t'.Sound := by
    refine ⟨(by decide : ThreadStatus.onlyReady ∈ ThreadStatus.legal), ?_, hsound.priority, fun _ => rfl⟩
    have hw := hsound.wait
    rw [hs] at hw
    exact hw
  obtain ⟨started, heq⟩ := launch_eq k t context
  rw [heq]
  refine h.queue (t := t') (fun x hx => thread?_putThread_of_ne t' hx) (thread?_putThread_self t') rfl hsound' ?_ rfl
    (fun _ _ => Iff.rfl) (fun hcx => absurd hcx hc) rfl (Or.inl rfl) h.calm
  intro t₁ ht₁
  rw [ht, Option.some.injEq] at ht₁
  rw [← ht₁, hs]
  decide

/-- A thread that is parked leaves the processor and waits. -/
theorem Coherent.park (h : k.Coherent) (hd : k.delivering = none) (hc : k.current = some t.id)
    (ht : k.thread? t.id = some t) (w : Wait) : (k.park t w).Coherent := by
  have hsound := h.threads t.id t ht
  have hs := h.runs hd hc ht
  have hstatus : (t.park w).status = .onlyWaiting := by
    show t.status.park = _
    rw [hs]
    rfl
  refine h.dequeue t.id (fun x hx => ?_) (fun t' ht' => ?_) (Or.inl rfl) (fun x hx => ?_) nofun rfl
    (Or.inr (Or.inl rfl)) h.calm
  · exact (thread?_park t w x).trans (if_neg fun hid => hx hid.symm)
  · rw [thread?_park, if_pos rfl, Option.some.injEq] at ht'
    rw [← ht', hstatus]
    refine ⟨⟨?_, ?_, hsound.priority, ?_⟩, by decide, by decide⟩
    · rw [hstatus]
      decide
    · rw [hstatus]
      exact ⟨fun _ => rfl, fun _ => rfl⟩
    · exact fun _ => hsound.context (by unfold Thread.isDormant; rw [hs]; rfl)
  · rw [hc]
    exact ⟨nofun, fun hx' => absurd (Option.some.inj hx').symm hx⟩

/-- A woken thread is queued if it is not held, and nothing else is disturbed. -/
theorem Coherent.wake (h : k.Coherent) (id : ThreadId) (result : Int32) : (k.wake id result).Coherent := by
  obtain ⟨e, heq, he, -⟩ | ⟨t, w, rfl, ht, hw⟩ := wake_cases k id result
  · rw [heq]
    refine h.of_threads (fun _ => rfl) rfl rfl rfl fun e' he' => ?_
    rcases List.mem_cons.mp he' with rfl | he'
    · exact he
    · exact h.calm e' he'
  · refine Coherent.sameObjects ?_ (wake_of_waiting ht hw result).toSameObjects
    have hsound := h.threads t.id t ht
    have hwaits : t.wait.isSome = true := by
      rw [hw]
      rfl
    have hview : ∀ x, x ≠ t.id → (k.putThread (t.unpark result)).thread? x = k.thread? x :=
      fun x hx => thread?_putThread_of_ne (t.unpark result) hx
    have ht' : (k.putThread (t.unpark result)).thread? t.id = some (t.unpark result) :=
      thread?_putThread_self (t.unpark result)
    unfold awaken
    obtain ⟨hs, hunpark⟩ | ⟨hs, hunpark⟩ := hsound.unparks hwaits
    · rw [hs, if_neg (by decide)]
      refine h.queue (t := t.unpark result) hview ht' hunpark (hsound.unpark hwaits result) ?_ rfl (fun _ _ => Iff.rfl) ?_
        rfl (Or.inl rfl) h.calm
      · intro t₁ ht₁
        rw [ht, Option.some.injEq] at ht₁
        rw [← ht₁, hs]
        decide
      · -- Only a thread whose wait a callback interrupts waits on the processor.
        intro hc
        obtain ⟨t₁, ht₁, hs₁⟩ := h.current t.id hc
        rw [ht, Option.some.injEq] at ht₁
        rw [← ht₁, hs] at hs₁
        show k.deliversFromWait t.id = true
        by_contra hno
        rw [if_neg hno] at hs₁
        cases hs₁
    · rw [hs, if_pos (by decide)]
      refine h.dequeue t.id hview (fun t₁ ht₁ => ?_) (Or.inr ⟨rfl, fun t₁ ht₁ => ?_⟩) (fun _ _ => Iff.rfl)
        (h.not_current ht (by rw [hs]; decide)) rfl (Or.inl rfl) h.calm
      · rw [ht', Option.some.injEq] at ht₁
        rw [← ht₁]
        have hstatus : (t.unpark result).status = .onlySuspended := hunpark
        exact ⟨hsound.unpark hwaits result, by rw [hstatus]; decide, by rw [hstatus]; decide⟩
      · rw [ht, Option.some.injEq] at ht₁
        rw [← ht₁, hs]
        decide

/-- A thread dies: it leaves the ready queue and the processor, and then the queue it stands in. -/
theorem Coherent.retire (h : k.Coherent) (ht : k.thread? t.id = some t) (exitCode : Int32) :
    (k.retire t exitCode).Coherent := by
  have hsound := h.threads t.id t ht
  have hfell : (k.fell t exitCode).Coherent := by
    refine h.dequeue t.id (fun x hx => thread?_putThread_of_ne (t.die exitCode) hx) (fun t' ht' => ?_)
      (Or.inl rfl) (fun x hx => ?_) ?_ rfl ?_ h.calm
    · have heq : some (t.die exitCode) = some t' := (thread?_putThread_self (t.die exitCode)).symm.trans ht'
      cases heq
      exact ⟨⟨(by decide : ThreadStatus.onlyDead ∈ ThreadStatus.legal), ⟨nofun, nofun⟩, hsound.priority, nofun⟩,
        (by decide : ThreadStatus.onlyDead ≠ .onlyReady), (by decide : ThreadStatus.onlyDead ≠ .onlyRunning)⟩
    · show (if k.current = some t.id then none else k.current) = some x ↔ k.current = some x
      split
      · next hc =>
        rw [hc]
        exact ⟨nofun, fun hx' => absurd (Option.some.inj hx').symm hx⟩
      · exact Iff.rfl
    · show (if k.current = some t.id then none else k.current) ≠ some t.id
      split
      · exact nofun
      · next hc => exact hc
    · show (if k.current = some t.id then none else k.current) = k.current ∨ _
      split
      · exact Or.inr (Or.inl (if_pos ‹_›))
      · exact Or.inl rfl
  obtain ⟨-, heq⟩ | ⟨w, -, heq⟩ := retire_eq k t exitCode <;> rw [heq]
  · exact hfell
  · exact hfell.detach t.id w

theorem Coherent.bury (h : k.Coherent) (ht : k.thread? t.id = some t) (hd : t.status.dead = true)
    (started : List ThreadId) : ({ k with objects := k.objects.erase t.id, started } : Kernel).Coherent := by
  have hs := (h.threads t.id t ht).of_dead hd
  have hview : ∀ x, ({ k with objects := k.objects.erase t.id, started } : Kernel).thread? x =
      if t.id = x then none else k.thread? x := fun x => ObjectTable.thread?_erase x
  refine h.dequeue t.id (fun x hx => ?_) (fun t' ht' => ?_) (Or.inr ⟨rfl, fun t' ht' => ?_⟩)
    (fun _ _ => Iff.rfl) (h.not_current ht (by rw [hs]; decide)) rfl (Or.inl rfl) h.calm
  · rw [hview, if_neg fun hid => hx hid.symm]
  · rw [hview, if_pos rfl] at ht'
    cases ht'
  · rw [ht, Option.some.injEq] at ht'
    rw [← ht', hs]
    decide

/-- A change of priority moves the thread's entry in the ready queue along. -/
theorem Coherent.reprioritise (h : k.Coherent) (ht : k.thread? t.id = some t)
    (hp : minPriority ≤ priority ∧ priority ≤ maxPriority) : (k.reprioritise t priority).Coherent := by
  have hsound := h.threads t.id t ht
  let t' : Thread := { t with priority }
  have hview : ∀ x, x ≠ t.id → (k.putThread t').thread? x = k.thread? x := fun x hx => thread?_putThread_of_ne t' hx
  have ht' : (k.putThread t').thread? t.id = some t' := thread?_putThread_self t'
  have hstatus : ∀ x, ((k.putThread t').thread? x).map (·.status) = (k.thread? x).map (·.status) := by
    intro x
    by_cases hx : x = t.id
    · rw [hx, ht', ht]
      rfl
    · rw [hview x hx]
  have hthreads : ∀ x t₁, (k.putThread t').thread? x = some t₁ → t₁.Sound := by
    intro x t₁ ht₁
    by_cases hx : x = t.id
    · rw [hx, ht', Option.some.injEq] at ht₁
      exact ht₁ ▸ ⟨hsound.status, hsound.wait, hp, hsound.context⟩
    · exact h.threads x t₁ (hview x hx ▸ ht₁)
  unfold Kernel.reprioritise
  dsimp only
  split
  · next hr =>
    have hremoved : (k.ready.remove t.id).Lists fun x => if x = t.id then none else k.thread? x := by
      refine h.ready.remove (fun x hx => if_neg hx) fun t₁ ht₁ => ?_
      rw [if_pos rfl] at ht₁
      cases ht₁
    let k₁ : Kernel := { k.putThread t' with ready := k.ready.remove t.id }
    obtain ⟨hlists, hnew⟩ := lists_schedule (k := k₁) (t := t') t.id hremoved
      (fun x hx => (hview x hx).trans (if_neg hx).symm)
      (fun t₁ ht₁ => by rw [if_pos rfl] at ht₁; cases ht₁) ht' hr
    have hview' : (k₁.schedule t.id priority).thread? = (k.putThread t').thread? :=
      funext (thread?_schedule k₁ t.id priority)
    show (k₁.schedule t.id priority).Coherent
    refine h.of_statuses ?_ ?_ ?_ (current_schedule ..) (delivering_schedule ..) (calm_of_isAlarm h.calm hnew)
    all_goals rw [hview']
    · exact hstatus
    · exact hlists
    · exact hthreads
  · next hr =>
    refine h.of_statuses hstatus (h.ready.keep hview (fun t₁ ht₁ => ?_) fun t₁ ht₁ => ?_) hthreads rfl rfl h.calm
    · rw [ht, Option.some.injEq] at ht₁
      exact ht₁ ▸ hr
    · rw [ht', Option.some.injEq] at ht₁
      exact ht₁ ▸ hr

/-- A held thread leaves the ready queue. -/
theorem Coherent.hold (h : k.Coherent) (ht : k.thread? t.id = some t) (hc : k.current ≠ some t.id)
    (hd : t.isDormant = false) (hs : t.status.suspended = false) : (k.hold t).Coherent := by
  have hsound := h.threads t.id t ht
  let t' : Thread := { t with status := t.status.suspend }
  have hstatus : t'.Sound ∧ t'.status ≠ .onlyReady ∧ t'.status ≠ .onlyRunning := by
    have hactive := hsound.of_active hd hs
    have hsuspend : t.status.suspend ∈ ThreadStatus.legal ∧ t.status.suspend.waiting = t.status.waiting ∧
        t.status.suspend ≠ .onlyReady ∧ t.status.suspend ≠ .onlyRunning := by
      rcases hactive with ha | ha | ha <;> rw [ha] <;> decide
    exact ⟨hsound.restatus hsuspend.1 hsuspend.2.1 hd, hsuspend.2.2⟩
  refine h.dequeue t.id (fun x hx => thread?_putThread_of_ne t' hx) (fun t₁ ht₁ => ?_) (Or.inl rfl)
    (fun _ _ => Iff.rfl) hc rfl (Or.inl rfl) h.calm
  have heq : some t' = some t₁ := (thread?_putThread_self t').symm.trans ht₁
  cases heq
  exact hstatus

/-- A released thread is queued, unless it still waits. -/
theorem Coherent.unhold (h : k.Coherent) (ht : k.thread? t.id = some t) (hs : t.status.suspended = true) :
    (k.unhold t).Coherent := by
  have hsound := h.threads t.id t ht
  have hcases := hsound.of_suspended hs
  have hd : t.isDormant = false := by
    unfold Thread.isDormant
    rcases hcases with hc | hc <;> rw [hc] <;> rfl
  have hcur : k.current ≠ some t.id := by
    refine h.not_current ht ?_
    rcases hcases with hc | hc <;> rw [hc] <;> decide
  have h₀ : ∀ t₁, k.thread? t.id = some t₁ → t₁.status ≠ .onlyReady := by
    intro t₁ ht₁
    rw [ht, Option.some.injEq] at ht₁
    rw [← ht₁]
    rcases hcases with hc | hc <;> rw [hc] <;> decide
  unfold Kernel.unhold
  dsimp only
  rcases hcases with hc | hc
  · let t' : Thread := { t with status := .onlyReady }
    rw [hc, if_pos (by decide)]
    exact h.queue (t := t') (fun x hx => thread?_putThread_of_ne t' hx) (thread?_putThread_self t') rfl
      (hsound.restatus (by decide) (by rw [hc]; rfl) hd) h₀ rfl (fun _ _ => Iff.rfl) (fun hx => absurd hx hcur) rfl
      (Or.inl rfl) h.calm
  · let t' : Thread := { t with status := .onlyWaiting }
    rw [hc, if_neg (by decide)]
    refine h.dequeue t.id (fun x hx => thread?_putThread_of_ne t' hx) (fun t₁ ht₁ => ?_) (Or.inr ⟨rfl, h₀⟩)
      (fun _ _ => Iff.rfl) hcur rfl (Or.inl rfl) h.calm
    have heq : some t' = some t₁ := (thread?_putThread_self t').symm.trans ht₁
    cases heq
    exact ⟨hsound.restatus (by decide) (by rw [hc]; rfl) hd,
      (by decide : ThreadStatus.onlyWaiting ≠ .onlyReady), (by decide : ThreadStatus.onlyWaiting ≠ .onlyRunning)⟩

/-- The running thread goes back to the queue. -/
theorem Coherent.preempt (h : k.Coherent) (hd : k.delivering = none) : k.preempt.Coherent := by
  unfold Kernel.preempt
  split
  · exact h
  · next id hc =>
    obtain ⟨t, ht, -⟩ := h.current id hc
    have hid := id_of_thread? ht
    subst hid
    have hs := h.runs hd hc ht
    have ht₀ : ({ k with current := none } : Kernel).thread? t.id = some t := ht
    let t' : Thread := { t with status := .onlyReady }
    dsimp only
    rw [ht₀]
    dsimp only
    rw [if_pos hs]
    refine h.queue (t := t') (fun x hx => thread?_putThread_of_ne t' hx) (thread?_putThread_self t') rfl
      ((h.threads t.id t ht).restatus (by decide) (by rw [hs]; rfl) (by unfold Thread.isDormant; rw [hs]; rfl)) ?_ rfl
      (fun x hx => ?_) nofun rfl (Or.inr (Or.inl rfl)) h.calm
    · intro t₁ ht₁
      rw [ht, Option.some.injEq] at ht₁
      rw [← ht₁, hs]
      decide
    · rw [hc]
      exact ⟨nofun, fun hx' => absurd (Option.some.inj hx').symm hx⟩

/-- The head of the ready queue gets the processor. -/
theorem runFirst_cons {e : ReadyEntry} (ht : k.thread? e.thread = some t) {context : ContextId}
    (hc : t.context = some context) (rest : List ReadyEntry) : k.runFirst (e :: rest) =
      (some ⟨e.thread, context, .resume⟩, { (k.putThread { t with status := .onlyRunning }).note
        (.dispatched e.thread) with ready := ⟨rest⟩, current := some e.thread }) := by
  unfold runFirst
  split
  · next hnone =>
    rw [ht] at hnone
    cases hnone
  · next t' ht' =>
    rw [ht] at ht'
    cases ht'
    dsimp only
    split
    · next context' hc' =>
      rw [hc] at hc'
      cases hc'
      rfl
    · next hnone =>
      rw [hc] at hnone
      cases hnone

/-- The first thread of the ready queue runs. -/
theorem Coherent.run (h : k.Coherent) (hd : k.delivering = none) (hc : k.current = none) :
    (k.runFirst k.ready.entries).2.Coherent := by
  cases he : k.ready.entries with
  | nil =>
    have hready : k.ready = ⟨[]⟩ := congrArg ReadyQueue.mk he
    exact h.of_threads (fun _ => rfl) hready.symm rfl rfl h.calm
  | cons e rest =>
    obtain ⟨t, ht, hs, -⟩ := h.ready.sound e (he ▸ List.mem_cons_self ..)
    have hid := id_of_thread? ht
    have hsound := h.threads e.thread t ht
    have hdormant : t.isDormant = false := by
      unfold Thread.isDormant
      rw [hs]
      rfl
    obtain ⟨context, hcontext⟩ := Option.isSome_iff_exists.mp (hsound.context hdormant)
    let t' : Thread := { t with status := .onlyRunning }
    have hview : ∀ x, x ≠ e.thread → (k.putThread t').thread? x = k.thread? x :=
      fun x hx => thread?_putThread_of_ne t' (hid.symm ▸ hx)
    have ht' : (k.putThread t').thread? e.thread = some t' := by
      rw [← hid]
      exact thread?_putThread_self t'
    have hlists : ReadyQueue.Lists ⟨rest⟩ (k.putThread t').thread? := by
      refine ReadyQueue.Lists.tail (e := e) (he ▸ h.ready) hview fun t₁ ht₁ => ?_
      rw [ht', Option.some.injEq] at ht₁
      rw [← ht₁]
      exact (by decide : ThreadStatus.onlyRunning ≠ .onlyReady)
    rw [runFirst_cons ht hcontext]
    refine h.replace e.thread hview hlists (fun t₁ ht₁ => ?_) (fun _ _ _ => rfl) (fun x hx => ?_)
      (fun _ => ⟨t', ht', ?_⟩) rfl (Or.inr (Or.inr hd)) fun e' he' => ?_
    · have heq : some t' = some t₁ := ht'.symm.trans ht₁
      cases heq
      exact hsound.restatus (by decide) (by rw [hs]; rfl) hdormant
    · rw [hc]
      exact ⟨fun hx' => absurd (Option.some.inj hx').symm hx, nofun⟩
    · show if k.deliversFromWait e.thread = true then _ else _
      rw [deliversFromWait_of_none hd, if_neg (by decide)]
    · rcases List.mem_cons.mp he' with rfl | he'
      · rfl
      · exact h.calm e' he'

/-- With nobody on the processor, nobody runs. -/
theorem Coherent.not_running (h : k.Coherent) (hc : k.current = none) (ht : k.thread? id = some t) :
    t.status ≠ .onlyRunning := by
  intro hs
  cases hc.symm.trans (h.running id t ht hs)

/-- Who lets callbacks in then is ready or waits. -/
theorem Coherent.status_of_admitsCallbacks (h : k.Coherent) (hc : k.current = none) (ht : k.thread? id = some t)
    (ha : t.admitsCallbacks = true) : t.status = .onlyReady ∨ t.status = .onlyWaiting := by
  unfold Thread.admitsCallbacks at ha
  simp only [Bool.or_eq_true, Bool.and_eq_true, Bool.not_eq_true', beq_iff_eq] at ha
  rcases ha with ⟨⟨hw, hs⟩, -⟩ | ⟨-, hs | hs⟩
  · rcases (h.threads id t ht).of_waiting hw with hs' | hs'
    · exact Or.inr hs'
    · rw [hs'] at hs
      cases hs
  · exact Or.inl hs
  · exact absurd hs (h.not_running hc ht)

/-- A callback interrupts a ready thread, which then runs, or a waiting one, which goes on waiting. -/
theorem Coherent.interrupt (h : k.Coherent) (hc : k.current = none) (ht : k.thread? t.id = some t)
    (ha : t.admitsCallbacks = true) (hdt : d.thread = t.id) (hdw : d.fromWait = t.status.waiting) :
    (k.interrupt t d).Coherent := by
  unfold Kernel.interrupt
  dsimp only
  rcases h.status_of_admitsCallbacks hc ht ha with hs | hs
  · let t' : Thread := { t with status := .onlyRunning }
    have hdormant : t.isDormant = false := by
      unfold Thread.isDormant
      rw [hs]
      rfl
    have hview : ∀ x, x ≠ t.id → (k.putThread t').thread? x = k.thread? x := fun x hx => thread?_putThread_of_ne t' hx
    have ht' : (k.putThread t').thread? t.id = some t' := thread?_putThread_self t'
    rw [if_pos hs]
    refine ⟨h.ready.remove hview fun t₁ ht₁ => ?_, fun x t₁ ht₁ => ?_, fun x t₁ ht₁ hs₁ => ?_, fun x hx => ?_,
      fun d' hd' => ?_, h.calm⟩
    · have heq : some t' = some t₁ := ht'.symm.trans ht₁
      cases heq
      exact (by decide : ThreadStatus.onlyRunning ≠ .onlyReady)
    · by_cases hx : x = t.id
      · subst hx
        have heq : some t' = some t₁ := ht'.symm.trans ht₁
        cases heq
        exact (h.threads t.id t ht).restatus (by decide) (by rw [hs]; rfl) hdormant
      · exact h.threads x t₁ ((hview x hx).symm.trans ht₁)
    · by_cases hx : x = t.id
      · rw [hx]
      · exact absurd hs₁ (h.not_running hc ((hview x hx).symm.trans ht₁))
    · cases hx
      refine ⟨t', ht', ?_⟩
      have hfrom : (d.fromWait && d.thread == t.id) = false := by
        rw [hdw, hs]
        rfl
      show if (d.fromWait && d.thread == t.id) = true then _ else _
      rw [hfrom, if_neg (by decide)]
    · cases hd'
      exact Or.inr (congrArg some hdt.symm)
  · rw [if_neg (by rw [hs]; decide)]
    refine ⟨h.ready, h.threads, fun x t₁ ht₁ hs₁ => absurd hs₁ (h.not_running hc ht₁), fun x hx => ?_, fun d' hd' => ?_,
      h.calm⟩
    · cases hx
      refine ⟨t, ht, ?_⟩
      have hfrom : (d.fromWait && d.thread == t.id) = true := by
        rw [hdw, hs, hdt]
        simp [ThreadStatus.onlyWaiting]
      show if (d.fromWait && d.thread == t.id) = true then _ else _
      rw [if_pos hfrom]
      exact Or.inl hs
    · cases hd'
      exact Or.inr (congrArg some hdt.symm)

/-- After a callback its thread goes back to what it did. -/
theorem Coherent.endDelivery (h : k.Coherent) (hd : k.delivering = some d) : (k.endDelivery d).Coherent := by
  have hfrom : ∀ x, k.deliversFromWait x = (d.fromWait && d.thread == x) := by
    intro x
    unfold deliversFromWait
    rw [hd]
  refine ⟨h.ready, h.threads, fun x t ht hs => ?_, fun x hx => ?_, nofun, h.calm⟩
  · have hcx := h.running x t ht hs
    show (if d.fromWait then none else k.current) = some x
    obtain ⟨t', ht', hs'⟩ := h.current x hcx
    have heq : some t = some t' := ht.symm.trans ht'
    cases heq
    rw [hs, hfrom] at hs'
    -- A thread that runs was not interrupted in a wait.
    have hno : d.fromWait = false := by
      by_contra hyes
      rw [Bool.not_eq_false] at hyes
      obtain hnone | hsome := h.delivering d hd
      · rw [hcx] at hnone
        cases hnone
      · rw [hcx, Option.some.injEq] at hsome
        rw [hyes, hsome, if_pos (by simp)] at hs'
        rcases hs' with hs' | hs' <;> cases hs'
    rw [hno]
    exact hcx
  · replace hx : (if d.fromWait then none else k.current) = some x := hx
    split at hx
    · cases hx
    · next hno =>
      obtain ⟨t, ht, hs⟩ := h.current x hx
      rw [hfrom, Bool.eq_false_iff.mpr hno, Bool.false_and] at hs
      exact ⟨t, ht, hs⟩

theorem Coherent.dropDelivery (h : k.Coherent) (hd : k.delivering = some d)
    (hnone : k.thread? d.thread = none) : ({ k with delivering := none } : Kernel).Coherent := by
  have hc : k.current = none := by
    obtain hc | hc := h.delivering d hd
    · exact hc
    · exact absurd hc (h.current_registered hnone)
  refine ⟨h.ready, h.threads, h.running, fun x hx => ?_, nofun, h.calm⟩
  replace hx : k.current = some x := hx
  rw [hc] at hx
  cases hx

/-- A new object under an id that is not taken. -/
theorem Coherent.create (h : k.Coherent) (hnew : o.IsNew) (hfresh : k.objects.get? o.id = none) :
    ({ k with objects := k.objects.skipId.put o } : Kernel).Coherent := by
  have hnone : k.thread? o.id = none := by
    rw [thread?, ObjectTable.thread?_eq_bind, hfresh]
    rfl
  have hview : ∀ x, ({ k with objects := k.objects.skipId.put o } : Kernel).thread? x =
      if o.id = x then o.thread? else k.thread? x := fun x => ObjectTable.thread?_put o x
  refine h.dequeue o.id (fun x hx => ?_) (fun t ht => ?_) (Or.inr ⟨rfl, fun t ht => ?_⟩) (fun _ _ => Iff.rfl)
    (h.current_registered hnone) rfl (Or.inl rfl) h.calm
  · rw [hview, if_neg fun hid => hx hid.symm]
  · rw [hview, if_pos rfl] at ht
    rw [Object.thread?_eq_some.mp ht] at hnew
    obtain ⟨hs, hw, -, -, -, -, -, hp⟩ := hnew
    refine ⟨⟨?_, ?_, hp, ?_⟩, ?_, ?_⟩
    · rw [hs]
      decide
    · rw [hs, hw]
      constructor <;> intro h <;> cases h
    · unfold Thread.isDormant
      rw [hs]
      intro hactive
      cases hactive
    · rw [hs]
      decide
    · rw [hs]
      decide
  · rw [hnone] at ht
    cases ht

/-- Objects other than threads may go. -/
theorem Coherent.erase (h : k.Coherent) (ho : k.objects.get? o.id = some o) (hkind : o.kind ≠ .thread) :
    ({ k with objects := k.objects.erase o.id } : Kernel).Coherent := by
  refine h.of_threads (fun x => ?_) rfl rfl rfl h.calm
  refine (ObjectTable.thread?_erase x).trans ?_
  split
  · next hx => rw [← hx, thread?, ObjectTable.thread?_eq_bind, ho, Option.bind_some, Object.thread?_eq_none.mpr hkind]
  · rfl

/-- An object that takes a waiter keeps the kernel coherent. -/
theorem Coherent.enqueue (h : k.Coherent) {w : Wait}
    (ho : k.objects.get? o.id = some o) (hq : o.Enqueues id priority w o') : (k.put o').Coherent := by
  by_cases hkind : o.kind = .thread
  · cases hq with
    | @join t =>
      have ht : k.thread? t.id = some t := ObjectTable.thread?_eq_some.mpr ho
      have hs := h.threads t.id t ht
      exact h.putThread { t with exitWaiters := t.exitWaiters ++ [id] } ht rfl rfl
        ⟨hs.status, hs.wait, hs.priority, hs.context⟩
    | _ => cases hkind
  · exact h.put ho hkind hq.id_eq hq.kind_eq

end Kernel

/-! ### Runs -/

/-- **Each move keeps the scheduler coherent**, if an object is made under an id that is not taken. -/
theorem Kernel.Coherent.step {l : Label} {s s' : Stage} (h : s.kernel.Coherent) (hm : Move l s s')
    (hfresh : l.Fresh s.kernel) : s'.kernel.Coherent := by
  cases hm with
  | quiet hq | load hq => exact h.sameObjects hq.toSameObjects
  | resource hq | reserve hq => exact h.sameObjects hq
  | create hid hnew => exact h.create hnew (hfresh _ rfl)
  | erase ho hkind => exact h.erase ho hkind
  | change ho hc => exact h.put ho hc.kind_ne_thread hc.id_eq hc.kind_eq
  | enqueue ho ht hw hq => exact h.enqueue ho hq
  | @edit k L t t' ht hlife =>
    have hs := h.threads t.id t ht
    rw [hlife]
    exact h.putThread _ ht rfl rfl ⟨hs.status, hs.wait, hs.priority, hs.context⟩
  | @launch k L t registers ht hs =>
    have hc := Kernel.sameObjects_allocateContext k t.entry registers
    exact (h.sameObjects hc).launch ((hc.thread? _).trans ht) hs _
  | park hd hc ht => exact h.park hd hc ht _
  | doze => exact h
  | detach => exact h.detach _ _
  | wake => exact h.wake _ _
  | retire ht => exact h.retire ht _
  | @strip k L t contexts ht hd =>
    have hs := h.threads t.id t ht
    refine .sameObjects ?_ (.contexts _ contexts)
    refine h.putThread t.strip ht rfl rfl ⟨hs.status, hs.wait, hs.priority, fun hdormant => ?_⟩
    have hdead : t.status.dormant = true := by
      unfold ThreadStatus.dormant
      rw [hd, Bool.or_true]
    exact absurd hdormant (by unfold Thread.isDormant Thread.strip; rw [hdead]; decide)
  | bury ht hd => exact h.bury ht hd _
  | reprioritise ht hs hp => exact h.reprioritise ht hp
  | hold ht hc hd hs => exact h.hold ht hc hd hs
  | unhold ht hs => exact h.unhold ht hs
  | preempt hd => exact h.preempt hd
  | run hd hc => exact h.run hd hc
  | interrupt hd hc ht ha hx hdt hdw => exact h.interrupt hc ht ha hdt hdw
  | endDelivery hd ht => exact h.endDelivery hd
  | dropDelivery hd hnone => exact h.dropDelivery hd hnone

/-- The next id is not taken, also after a move, while the counter does not come round. -/
theorem Kernel.IdsBelow.step {l : Label} {s s' : Stage} (h : s.kernel.IdsBelow) (hm : Move l s s')
    (hbound : ∀ o, l = .create o → s.kernel.nextId.toNat + 1 < 2 ^ 32) : s'.kernel.IdsBelow := by
  have hkeep : s'.kernel.nextId = s.kernel.nextId →
      (∀ x, s.kernel.objects.get? x = none → s'.kernel.objects.get? x = none) → s'.kernel.IdsBelow := by
    intro hnext hnone id
    rw [hnext]
    exact (h id).imp_right (hnone id)
  obtain ⟨hnext, -, hnone⟩ | ⟨o, hl, hid, hs'⟩ | ⟨hnext, hnone, -⟩ := hm.noneNew
  · exact hkeep hnext hnone
  · intro id
    have hnext : s'.kernel.nextId.toNat = s.kernel.nextId.toNat + 1 := by
      rw [hs']
      show (s.kernel.nextId + 1).toNat = _
      rw [UInt32.toNat_add, show (1 : UInt32).toNat = 1 from rfl, Nat.mod_eq_of_lt (hbound o hl)]
    rw [hnext, hs']
    obtain hlt | hnone := h id
    · exact Or.inl (by omega)
    · by_cases heq : o.id = id
      · rw [← heq, hid]
        exact Or.inl (by omega)
      · exact Or.inr ((ObjectTable.get?_put ..).trans ((if_neg heq).trans hnone))
  · exact hkeep hnext hnone

theorem Kernel.IdsBelow.fresh {k : Kernel} (h : k.IdsBelow) : k.objects.get? k.nextId = none := by
  obtain hlt | hnone := h k.nextId
  · omega
  · exact hnone

theorem Kernel.IdsBelow.thread_lt {k : Kernel} {x : ThreadId} {t : Thread} (h : k.IdsBelow)
    (ht : k.thread? x = some t) : x.toNat < k.nextId.toNat := by
  obtain hlt | hnone := h x
  · exact hlt
  · cases (ObjectTable.thread?_eq_some.mp ht).symm.trans hnone

/-- An operation that may make an object has an id for it. -/
theorem Operation.Permits.room {o : Operation} {k k' : Kernel} {x : Object} (h : o.Permits k (.create x))
    (hid : x.id = k'.nextId) (hbound : k.SparesLastId o) :
    k'.nextId.toNat + 1 < 2 ^ 32 := by
  obtain ⟨hid', hafter, -⟩ := h.created
  rw [← hid, hid']
  refine hbound ?_
  rw [hafter]
  simp

namespace Kernel

variable {k : Kernel} {P : Stage → Prop} {o : Operation} {config : KernelConfig} {memory : Memory}
  {operations : List Operation}

/-- What moves that an operation may make preserve in a coherent kernel; what they make has an id that was not taken. -/
theorem preserved_moves {A : Label → Prop} {s s' : Stage} (hmoves : Moves A s s')
    (hA : ∀ l, A l → o.Permits k l) (hbound : k.SparesLastId o) (h : s.kernel.Coherent ∧ s.kernel.IdsBelow)
    (hP : ∀ l s s', A l → s.kernel.Coherent → l.Fresh s.kernel → Move l s s' → P s → P s') (h₀ : P s) :
    (s'.kernel.Coherent ∧ s'.kernel.IdsBelow) ∧ P s' := by
  refine hmoves.preserves (P := fun s => (s.kernel.Coherent ∧ s.kernel.IdsBelow) ∧ P s) ?_ ⟨h, h₀⟩
  rintro l s s' hl hm ⟨⟨hc, hb⟩, hs⟩
  have hfresh : l.Fresh s.kernel := by
    rintro x rfl
    cases hm with
    | create hid => exact hid ▸ hb.fresh
  refine ⟨⟨hc.step hm hfresh, hb.step hm ?_⟩, hP l s s' hl hc hfresh hm hs⟩
  rintro x rfl
  cases hm with
  | create hid => exact (hA _ hl).room hid hbound

/-- **What the moves of an operation preserve in a coherent kernel, the operation preserves**; what it makes has an id
that was not taken. -/
theorem permitted_after (h : k.Coherent ∧ k.IdsBelow) (hn : k.started.Nodup) (hbound : k.SparesLastId o)
    (hP : ∀ l s s', o.Permits k l → s.kernel.Coherent → l.Fresh s.kernel → Move l s s' → P s → P s') (h₀ : P ⟨k, []⟩) :
    ((k.after o).Coherent ∧ (k.after o).IdsBelow) ∧ ∃ L, P ⟨k.after o, L⟩ ∧ (k.failsCancel o = false → L = []) := by
  obtain ⟨-, L, hmoves, hL⟩ := moves_after k o hn
  obtain ⟨hc, hs⟩ := preserved_moves hmoves (fun _ hl => hl) hbound h hP h₀
  exact ⟨hc, L, hs, hL⟩

/-- What the moves of an operation preserve in a coherent kernel, the operation preserves, even if it hands out the last
id: it makes one object at most. -/
theorem staged_after (h : k.Coherent ∧ k.IdsBelow) (hn : k.started.Nodup)
    (hP : ∀ l s s', o.Permits k l → s.kernel.Coherent → l.Fresh s.kernel → Move l s s' → P s → P s') (h₀ : P ⟨k, []⟩) :
    (k.after o).Coherent ∧ ∃ L, P ⟨k.after o, L⟩ ∧ (k.failsCancel o = false → L = []) := by
  obtain ⟨-, L, hmoves, hL⟩ := moves_after k o hn
  have hall : ((k.after o).Coherent ∧ ((k.after o).nextId = k.nextId → (k.after o).IdsBelow)) ∧ P ⟨k.after o, L⟩ := by
    refine hmoves.preserves
      (P := fun s => (s.kernel.Coherent ∧ (s.kernel.nextId = k.nextId → s.kernel.IdsBelow)) ∧ P s) ?_
      ⟨⟨h.1, fun _ => h.2⟩, h₀⟩
    rintro l s s' hl hm ⟨⟨hc, hb⟩, hs⟩
    have hnext : ∀ x, l = .create x → s.kernel.nextId = k.nextId ∧ x.id = k.nextId := by
      rintro x rfl
      obtain ⟨hx, -⟩ := hl.created
      cases hm with
      | create hid => exact ⟨hid.symm.trans hx, hx⟩
    have hfresh : l.Fresh s.kernel := by
      intro x hx
      obtain ⟨hs', hid⟩ := hnext x hx
      rw [hid, ← hs']
      exact (hb hs').fresh
    refine ⟨⟨hc.step hm hfresh, fun heq => ?_⟩, hP l s s' hl hc hfresh hm hs⟩
    obtain hstays | ⟨x, hx, -, hone⟩ := hm.nextId
    · refine (hb (hstays.symm.trans heq)).step hm fun x hx => ?_
      subst hx
      cases hm with
      | @create k₁ =>
        have hone : k₁.nextId + 1 = k₁.nextId := hstays
        simp at hone
    · rw [(hnext x hx).1, heq] at hone
      simp at hone
  exact ⟨hall.1.1, L, hall.2, hL⟩

/-- What all moves preserve in a coherent kernel, every operation preserves. -/
theorem preserved_after (h : k.Coherent ∧ k.IdsBelow) (hn : k.started.Nodup) (hbound : k.SparesLastId o)
    (hP : ∀ l s s', s.kernel.Coherent → l.Fresh s.kernel → Move l s s' → P s → P s') (h₀ : P ⟨k, []⟩) :
    ((k.after o).Coherent ∧ (k.after o).IdsBelow) ∧ ∃ L, P ⟨k.after o, L⟩ ∧ (k.failsCancel o = false → L = []) :=
  permitted_after h hn hbound (fun l s s' _ => hP l s s') h₀

theorem coherent_after (h : k.Coherent ∧ k.IdsBelow) (hn : k.started.Nodup)
    (hbound : k.SparesLastId o) : (k.after o).Coherent ∧ (k.after o).IdsBelow :=
  (preserved_after (P := fun _ => True) h hn hbound (fun _ _ _ _ _ _ _ => trivial) trivial).1

/-- A new kernel is coherent. -/
theorem coherent_new (config : KernelConfig) (memory : Memory) :
    (Kernel.new config memory).Coherent ∧ (Kernel.new config memory).IdsBelow := by
  obtain ⟨partitions, journal, heq, hcalm⟩ := new_cases config memory
  have hnone := get?_new config memory
  have hno : ∀ id t, (Kernel.new config memory).thread? id ≠ some t := by
    intro id t ht
    rw [thread?_new] at ht
    cases ht
  rw [heq] at hnone hno ⊢
  refine ⟨⟨.empty fun id t ht => absurd ht (hno id t), fun id t ht => absurd ht (hno id t),
    fun id t ht => absurd ht (hno id t), fun id hc => ?_, fun d hd => ?_,
    fun e he => (Bool.or_eq_false_iff.mp (hcalm e he)).1⟩, fun id => Or.inr (hnone id)⟩
  · cases hc
  · cases hd

theorem along_true (k : Kernel) (operations : List Operation) : k.Along (fun _ _ => True) operations := by
  induction operations generalizing k with
  | nil => trivial
  | cons o rest ih => exact ⟨trivial, ih _⟩

/-- **What a new kernel satisfies and every operation keeps in a coherent kernel, every reachable state satisfies**, as
long as ids have not run out; and the state is coherent. -/
theorem reachable_keeps {P : Kernel → Prop}
    (hids : (Kernel.new config memory).handedOut operations < 2 ^ 32 - 1) (hnew : P (Kernel.new config memory))
    (hafter : ∀ k o, k.Coherent ∧ k.IdsBelow → k.started.Nodup → k.SparesLastId o → P k → P (k.after o)) :
    (((Kernel.new config memory).run operations).Coherent ∧ ((Kernel.new config memory).run operations).IdsBelow) ∧
      P ((Kernel.new config memory).run operations) := by
  have hnext := nextId_new config memory
  refine run_preserves (P := fun k => (k.Coherent ∧ k.IdsBelow) ∧ P k) ?_ operations (nodup_started_new config memory)
    (by omega) (along_true _ operations) ⟨coherent_new config memory, hnew⟩
  rintro k o hn hbound - ⟨hc, h⟩
  exact ⟨coherent_after hc hn hbound, hafter k o hc hn hbound h⟩

/-- The same of what every move keeps. -/
theorem reachable_moves {P : Kernel → Prop}
    (hids : (Kernel.new config memory).handedOut operations < 2 ^ 32 - 1) (hnew : P (Kernel.new config memory))
    (hstep : ∀ l s s', s.kernel.Coherent → l.Fresh s.kernel → Move l s s' → P s.kernel → P s'.kernel) :
    (((Kernel.new config memory).run operations).Coherent ∧ ((Kernel.new config memory).run operations).IdsBelow) ∧
      P ((Kernel.new config memory).run operations) := by
  refine reachable_keeps hids hnew fun k o hc hn hbound h => ?_
  obtain ⟨-, L, hP, -⟩ := preserved_after (P := fun s => P s.kernel) hc hn hbound hstep h
  exact hP

/-- An operation hands out one id at most. -/
theorem handedOut_le_length (k : Kernel) (operations : List Operation) :
    k.handedOut operations ≤ operations.length := by
  induction operations generalizing k with
  | nil => exact Nat.le_refl 0
  | cons o rest ih =>
    have hrest := ih (k.after o)
    unfold handedOut
    rw [List.length_cons]
    split <;> omega

/-- A run of fewer than `2 ^ 32 - 1` operations does not run out of ids. -/
theorem handedOut_lt {operations : List Operation} (h : operations.length < 2 ^ 32 - 1) :
    k.handedOut operations < 2 ^ 32 - 1 :=
  Nat.lt_of_le_of_lt (handedOut_le_length k operations) h

/-- **The scheduler is coherent in every reachable state**, as long as ids have not run out. -/
theorem coherent_run (config : KernelConfig) (memory : Memory) (operations : List Operation)
    (h : (Kernel.new config memory).handedOut operations < 2 ^ 32 - 1) :
    ((Kernel.new config memory).run operations).Coherent := by
  have hn := nodup_started_new config memory
  have hnext := nextId_new config memory
  refine (run_preserves (P := fun k => k.Coherent ∧ k.IdsBelow) ?_ operations hn ?_ (along_true _ operations)
    (coherent_new config memory)).1
  · intro k o hn hbound _ hP
    exact coherent_after hP hn hbound
  · omega

/-- A thread sleeps, a callback interrupts its sleep, and it is woken up before the callback returns. -/
def interruptedSleep : List Operation :=
  [.syscall (.createThread "main" 0x08900000 32 0x1000 0), .syscall (.startThread 1 0 0), .dispatch,
    .syscall (.createCallback "notice" 0x08901000 0), .syscall (.sleepThread true), .syscall (.notifyCallback 2 7),
    .dispatch, .wakeupThread 1]

/-- The thread is ready and queued, on the processor all the same, and the scheduler coherent. -/
theorem coherent_run_interruptedSleep :
    (Kernel.new {} {}).handedOut interruptedSleep < 2 ^ 32 - 1 ∧
      ((Kernel.new {} {}).run interruptedSleep).deliversFromWait 1 = true ∧
      ((Kernel.new {} {}).run interruptedSleep).current = some 1 ∧
      ((Kernel.new {} {}).run interruptedSleep).ready.entries = [⟨1, 32⟩] ∧
      ((Kernel.new {} {}).run interruptedSleep).Coherent := by
  have hids : (Kernel.new {} {}).handedOut interruptedSleep < 2 ^ 32 - 1 := handedOut_lt (by decide)
  exact ⟨hids, by decide +kernel, by decide +kernel, by decide +kernel, coherent_run {} {} interruptedSleep hids⟩

end Kernel
end GuestKernel
