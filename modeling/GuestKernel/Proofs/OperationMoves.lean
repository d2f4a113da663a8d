/-
# Operations as moves

Every operation is a sequence of moves (`moves_after`). Besides threads and callbacks it touches at most the object that
it names, and it makes at most one object, of the kind the call says, under the next id. Only calls that create or delete
a thread, a pipe or a guest block move blocks of partitions. Only a call that cancels all waits on an object and
fails leaves threads in transit.

A kernel hands out ids by counting; while it has handed out fewer than `2 ^ 32 - 1` of them the counter has not come
round. What every operation preserves under this bound, every run preserves (`run_preserves`).

Source: specification, 5.
-/

import GuestKernel.Proofs.PipeMoves
import Mathlib.Algebra.Group.Nat.Defs

namespace GuestKernel

/-! ### What a call names -/

namespace Syscall

/-- The object other than a thread or a callback that a call works on. -/
def object? : Syscall → Option (ObjectKind × ObjectId)
  | signalSemaphore id _ | waitSemaphore id .. | pollSemaphore id _ | cancelSemaphore id .. => some (.semaphore, id)
  | setEventFlag id _ | clearEventFlag id _ | waitEventFlag id .. | pollEventFlag id _ => some (.eventFlag, id)
  | cancelEventFlag id .. => some (.eventFlag, id)
  | lockMutex id .. | tryLockMutex id _ | unlockMutex id _ | cancelMutex id .. => some (.mutex, id)
  | sendPipe id .. | trySendPipe id _ | receivePipe id .. | tryReceivePipe id _ => some (.messagePipe, id)
  | cancelPipe id .. => some (.messagePipe, id)
  | _ => none

/-- The object other than a thread or a callback that a call deletes. -/
def deletes? : Syscall → Option (ObjectKind × ObjectId)
  | deleteSemaphore id => some (.semaphore, id)
  | deleteEventFlag id => some (.eventFlag, id)
  | deleteMutex id => some (.mutex, id)
  | deletePipe id => some (.messagePipe, id)
  | freeMemory id => some (.partitionMemory, id)
  | _ => none

/-- The kind of object that a call creates. -/
def creates? : Syscall → Option ObjectKind
  | createThread .. => some .thread
  | createCallback .. => some .callback
  | createSemaphore .. => some .semaphore
  | createEventFlag .. => some .eventFlag
  | createMutex .. => some .mutex
  | createPipe .. => some .messagePipe
  | allocateMemory .. => some .partitionMemory
  | _ => none

/-- Whether the call takes blocks out of a partition or gives them back. -/
def reserves : Syscall → Bool
  | createThread .. | deleteThread .. | exitDeleteThread .. | terminateDeleteThread .. => true
  | createPipe .. | deletePipe .. | allocateMemory .. | freeMemory .. => true
  | _ => false

/-- Whether the call sends all waiters of an object away. -/
def isCancel : Syscall → Bool
  | cancelSemaphore .. | cancelEventFlag .. | cancelMutex .. | cancelPipe .. => true
  | _ => false

/-- The thread that a call starts. -/
def starts? : Syscall → Option ThreadId
  | startThread id .. => some id
  | _ => none

/-- The thread that a call ends. -/
def ends? (k : Kernel) : Syscall → Option ThreadId
  | exitThread _ | exitDeleteThread _ => k.current
  | terminateThread id | terminateDeleteThread id | deleteThread id => some id
  | _ => none

/-- The thread that a call puts on hold. -/
def suspends? : Syscall → Option ThreadId
  | suspendThread id => some id
  | _ => none

/-- The thread whose hold a call ends. -/
def resumes? : Syscall → Option ThreadId
  | resumeThread id => some id
  | _ => none

/-- Whether the call may leave the running thread waiting. -/
def mayBlock : Syscall → Bool
  | waitThreadEnd .. | sleepThread _ | delayThread .. => true
  | waitSemaphore .. | waitEventFlag .. | lockMutex .. | sendPipe .. | receivePipe .. => true
  | _ => false

/-- The thread whose priority a call changes. -/
def ranks? (k : Kernel) : Syscall → Option ThreadId
  | changeThreadPriority id _ => (k.resolve id).toOption
  | _ => none

/-- The thread whose saved wakeups a call takes or adds to. -/
def counts? (k : Kernel) : Syscall → Option ThreadId
  | sleepThread _ => k.current
  | wakeupThread id | cancelWakeupThread id => (k.resolve id).toOption
  | _ => none

/-- Whether the call changes which callbacks there are, or asks for them to run. -/
def attaches : Syscall → Bool
  | createCallback .. | deleteCallback _ | checkCallback => true
  | deleteThread .. | exitDeleteThread .. | terminateDeleteThread .. => true
  | _ => false

/-- The callback that a call notifies, and with which argument. -/
def notifies? : Syscall → Option (ObjectId × UInt32)
  | notifyCallback id argument => some (id, argument)
  | _ => none

theorem kind_of_object? {call : Syscall} {kind : ObjectKind} {id : ObjectId} (h : call.object? = some (kind, id)) :
    kind ≠ .callback := by
  rintro rfl
  cases call <;> cases h

theorem kind_of_deletes? {call : Syscall} {kind : ObjectKind} {id : ObjectId} (h : call.deletes? = some (kind, id)) :
    kind ≠ .callback := by
  rintro rfl
  cases call <;> cases h

end Syscall

namespace Operation

/-- The object other than a thread or a callback that an operation works on. -/
def object? : Operation → Option (ObjectKind × ObjectId)
  | syscall call => call.object?
  | _ => none

/-- The object other than a thread or a callback that an operation deletes. -/
def deletes? : Operation → Option (ObjectKind × ObjectId)
  | syscall call => call.deletes?
  | _ => none

/-- The kind of object that an operation creates. -/
def creates? : Operation → Option ObjectKind
  | syscall call => call.creates?
  | _ => none

/-- Whether the operation takes blocks out of a partition or gives them back. -/
def reserves : Operation → Bool
  | syscall call => call.reserves
  | deleteThread _ => true
  | _ => false

/-- Whether the operation ends the callback that runs. -/
def finishes : Operation → Bool
  | finishCallback _ => true
  | _ => false

/-- Whether the operation fills registers of the guest with more than results. -/
def loads : Operation → Bool
  | finishCallback _ | guestRegister .. => true
  | _ => false

/-- Whether the operation ends waits whose time is up. -/
def expires : Operation → Bool
  | advanceClock _ | expireTimeouts => true
  | _ => false

/-- The thread that an operation starts. -/
def starts? : Operation → Option ThreadId
  | syscall call => call.starts?
  | _ => none

/-- The thread that an operation ends. -/
def ends? (k : Kernel) : Operation → Option ThreadId
  | syscall call => call.ends? k
  | exitThread id _ | deleteThread id | terminateThread id => some id
  | _ => none

/-- The thread that an operation puts on hold. -/
def suspends? : Operation → Option ThreadId
  | syscall call => call.suspends?
  | suspendThread id => some id
  | _ => none

/-- The thread whose hold an operation ends. -/
def resumes? : Operation → Option ThreadId
  | syscall call => call.resumes?
  | resumeThread id => some id
  | _ => none

/-- Whether the operation is a call that may leave the running thread waiting. -/
def mayBlock : Operation → Bool
  | syscall call => call.mayBlock
  | delayThread .. | joinThread .. => true
  | _ => false

/-- The thread whose priority an operation changes. -/
def ranks? (k : Kernel) : Operation → Option ThreadId
  | syscall call => call.ranks? k
  | changePriority id _ => some id
  | _ => none

/-- The thread whose saved wakeups an operation takes or adds to. -/
def counts? (k : Kernel) : Operation → Option ThreadId
  | syscall call => call.counts? k
  | wakeupThread id | cancelWakeup id => some id
  | _ => none

/-- Whether the operation changes which callbacks there are, or whether they are asked for. -/
def attaches : Operation → Bool
  | syscall call => call.attaches
  | deleteThread _ | finishCallback _ => true
  | _ => false

/-- The callback that an operation notifies, and with which argument. -/
def notifies? : Operation → Option (ObjectId × UInt32)
  | syscall call => call.notifies?
  | _ => none

/-- What creates an object works on no other. -/
theorem object?_of_creates? {o : Operation} {kind : ObjectKind} (h : o.creates? = some kind) : o.object? = none := by
  cases o with
  | syscall call => cases call <;> first | rfl | cases h
  | _ => rfl

/-- The label of a routine move, of a change of the object that an operation works on, of the end of the one that it
deletes, of a change of the blocks of partitions by an operation that makes such changes, of the end of the callback that
runs by the operation that reports it, or of the filling of registers by an operation that fills some. -/
def Touches (o : Operation) (l : Label) : Prop :=
  l.IsRoutine ∨ (∃ kind id, o.object? = some (kind, id) ∧ l.Changes kind id) ∨
    (∃ kind id, o.deletes? = some (kind, id) ∧ l.Erases kind id) ∨ (o.reserves = true ∧ l.Reserves) ∨
    (o.finishes = true ∧ l.EndsDelivery) ∨ (o.loads = true ∧ l.Loads)

theorem not_touches_create (o : Operation) (x : Object) : ¬ o.Touches (.create x) := by
  rintro (h | ⟨kind, id, -, h⟩ | ⟨kind, id, -, h⟩ | ⟨-, h⟩ | ⟨-, h⟩ | ⟨-, h⟩) <;> exact h

/-- An operation changes no other objects. -/
theorem Touches.not_changes {o : Operation} {l : Label} (h : o.Touches l) {kind : ObjectKind} {id : ObjectId}
    (ho : o.object? ≠ some (kind, id)) (hthread : kind ≠ .thread) (hcallback : kind ≠ .callback) :
    ¬ l.Changes kind id := by
  intro hc
  rcases h with h | ⟨kind', id', ho', h⟩ | ⟨kind', id', -, h⟩ | ⟨-, h⟩ | ⟨-, h⟩ | ⟨-, h⟩
  · cases l with
    | change | enqueue => exact h.elim (fun hk => hthread (hc.1 ▸ hk)) fun hk => hcallback (hc.1 ▸ hk)
    | _ => exact hc
  · cases l with
    | change | enqueue => exact ho (by rw [ho', ← h.1, ← h.2, hc.1, hc.2])
    | _ => exact hc
  · cases l with
    | erase => exact hc
    | _ => exact h
  all_goals
    cases l with
    | change | enqueue => exact h
    | _ => exact hc

/-- An operation deletes no other objects. -/
theorem Touches.not_erases {o : Operation} {l : Label} (h : o.Touches l) {kind : ObjectKind} {id : ObjectId}
    (ho : o.deletes? ≠ some (kind, id)) (hthread : kind ≠ .thread) (hcallback : kind ≠ .callback) :
    ¬ l.Erases kind id := by
  intro he
  cases l with
  | erase x =>
    obtain ⟨rfl, rfl⟩ := he
    rcases h with h | ⟨kind', id', -, h⟩ | ⟨kind', id', ho', rfl, rfl⟩ | ⟨-, h⟩ | ⟨-, h⟩ | ⟨-, h⟩
    · exact h.elim hthread hcallback
    · exact h
    · exact ho ho'
    all_goals exact h
  | _ => exact he

/-- The label of the scheduling that an operation does: it starts, ends, holds or lets go on the thread that it is
about, parks the running one, ends the waits whose time is up or a sleep, or gives the processor to somebody. -/
def Arranges (o : Operation) (k : Kernel) : Label → Prop
  | .launch id => o.starts? = some id
  | .retire id _ => o.ends? k = some id
  | .hold id => o.suspends? = some id
  | .unhold id => o.resumes? = some id
  | .park id _ => o.mayBlock = true ∧ k.current = some id
  | .detach id w => o.expires = true ∨ w.kind = .sleep ∧ o.counts? k = some id
  | .preempt | .run | .interrupt _ => o = .dispatch
  | _ => False

theorem Arranges.isRoutine {o : Operation} {k : Kernel} {l : Label} (h : o.Arranges k l) : l.IsRoutine := by
  cases l <;> trivial

theorem Arranges.not_revises {o : Operation} {k : Kernel} {l : Label} (h : o.Arranges k l) : ¬ l.Revises := by
  cases l <;> first | exact id | exact absurd h id

/-- The label of what an operation changes of the things that belong to one thread. -/
def Revises (o : Operation) (k : Kernel) (l : Label) : Prop :=
  (∃ id, o.ranks? k = some id ∧ l.Ranks id) ∨ (∃ id, o.counts? k = some id ∧ l.Counts id) ∨
    (o.attaches = true ∧ l.Attaches) ∨ (∃ id argument, o.notifies? = some (id, argument) ∧ l.Notifies id argument) ∨
    (o = .dispatch ∧ l.Takes)

theorem Revises.revises {o : Operation} {k : Kernel} {l : Label} (h : o.Revises k l) : l.Revises := by
  rcases h with ⟨id, -, h⟩ | ⟨id, -, h⟩ | ⟨-, h⟩ | ⟨id, argument, -, h⟩ | ⟨-, h⟩ <;> exact h.revises

end Operation

/-- What an operation may do: moves that touch nothing but threads, callbacks and the object it works on or deletes,
schedule as it is to and revise what it is to, or, if it works on none, making one object of the kind it creates under the
next id. -/
inductive Operation.Permits (o : Operation) (k : Kernel) : Label → Prop where
  | touch {l : Label} (h : o.Touches l) (hs : l.Schedules → o.Arranges k l) (hv : l.Revises → o.Revises k l) :
      Permits o k l
  | create {x : Object} (ho : o.object? = none) (h : x.id = k.nextId) (hafter : (k.after o).nextId = k.nextId + 1)
      (hkind : o.creates? = some x.kind) : Permits o k (.create x)

/-- What an operation makes gets the next id, and is of the kind that it creates. -/
theorem Operation.Permits.created {o : Operation} {k : Kernel} {x : Object} (h : o.Permits k (.create x)) :
    x.id = k.nextId ∧ (k.after o).nextId = k.nextId + 1 ∧ o.creates? = some x.kind := by
  cases h with
  | touch htouch => exact absurd htouch (o.not_touches_create x)
  | create _ hid hafter hkind => exact ⟨hid, hafter, hkind⟩

/-- An operation changes no object but the one it is on. -/
theorem Operation.Permits.not_changes {o : Operation} {k : Kernel} {l : Label} (h : o.Permits k l) {kind : ObjectKind}
    {id : ObjectId} (ho : o.object? ≠ some (kind, id)) (hthread : kind ≠ .thread) (hcallback : kind ≠ .callback) :
    ¬ l.Changes kind id := by
  cases h with
  | touch htouch => exact htouch.not_changes ho hthread hcallback
  | create => exact nofun

/-- Whether the operation is a call that cancels the waits on an object, and fails. -/
def Kernel.failsCancel (k : Kernel) : Operation → Bool
  | .syscall call => call.isCancel && !(k.perform call).result.isOk
  | _ => false

/-- The thread that ends is the running one. -/
theorem Kernel.current_of_exitCurrent {k : Kernel} {exitCode : Int32} {id : ThreadId}
    (h : (k.exitCurrent exitCode).result = .ok id) : k.current = some id := by
  unfold Kernel.exitCurrent at h
  split at h
  · cases h
  · next id' hc =>
    change (k.exitThread id' exitCode).result.map (fun _ => id') = .ok id at h
    cases hr : (k.exitThread id' exitCode).result with
    | error e =>
      rw [hr] at h
      cases h
    | ok u =>
      rw [hr] at h
      cases h
      exact hc

namespace Moves

variable {A : Label → Prop} {k : Kernel} {s : Stage} {α : Type} {id : ThreadId}

theorem andThen {α β : Type} {r : Reply α} {next : α → Kernel → Reply β} (h : Moves A s ⟨r.kernel, []⟩)
    (hnext : ∀ a k, r.result = .ok a → Moves A ⟨k, []⟩ ⟨(next a k).kernel, []⟩) :
    Moves A s ⟨(r.andThen next).kernel, []⟩ := by
  obtain ⟨e, -, hr, -⟩ | ⟨a, ha, hr⟩ := r.kernel_andThen next <;> rw [hr]
  · exact h
  · exact h.trans (hnext a r.kernel ha)

theorem onThread (call : Kernel → ThreadId → Reply α) (id : ThreadId)
    (h : ∀ x, (k.resolve id).toOption = some x → Moves A ⟨k, []⟩ ⟨(call k x).kernel, []⟩) :
    Moves A ⟨k, []⟩ ⟨(k.onThread id call).kernel, []⟩ := by
  unfold Kernel.onThread
  split
  · next x hx => exact h x (congrArg Except.toOption hx)
  · exact .refl _

theorem onOther {call : Kernel → ThreadId → Reply α} (id : ThreadId)
    (h : Moves A ⟨k, []⟩ ⟨(call k id).kernel, []⟩) : Moves A ⟨k, []⟩ ⟨(k.onOther id call).kernel, []⟩ := by
  unfold Kernel.onOther
  split
  · exact .refl _
  · exact h

theorem deleteDormant (hA : ∀ l, l.IsPlain → A l) (hR : ∀ l, l.Reserves → A l) (hT : ∀ l, l.Attaches → A l)
    (hretire : ∀ exitCode, A (.retire id exitCode)) : Moves A ⟨k, []⟩ ⟨(k.deleteDormant id).kernel, []⟩ := by
  unfold Kernel.deleteDormant
  split
  · exact .refl _
  · split
    · exact .refl _
    · split
      · exact deleteThread hA hR hT hretire
      · exact .refl _

theorem exitCurrent (hA : ∀ l, l.IsPlain → A l)
    (hretire : ∀ id exitCode, k.current = some id → A (.retire id exitCode)) (exitCode : Int32) :
    Moves A ⟨k, []⟩ ⟨(k.exitCurrent exitCode).kernel, []⟩ := by
  unfold Kernel.exitCurrent
  split
  · exact .refl _
  · next id hc => exact exitThread hA (fun exitCode => hretire id exitCode hc) exitCode

theorem restorePriority (hrank : ∀ l, l.Ranks id → A l) (priority : UInt32) :
    Moves A ⟨k, []⟩ ⟨(k.restorePriority id priority).kernel, []⟩ := by
  unfold Kernel.restorePriority
  split
  · split
    · exact .refl _
    · exact changePriority hrank _
  · exact changePriority hrank _

theorem waitThreadEnd (hA : ∀ l, l.IsPlain → A l) (id : ThreadId) (timeoutAddress : UInt32) (callbacks : Bool) :
    Blocks A k (k.waitThreadEnd id timeoutAddress callbacks).kernel := by
  unfold Kernel.waitThreadEnd
  split
  · exact .through (quiet hA (Kernel.Quiet.fault k _))
  · exact joinThread hA id _ timeoutAddress callbacks

/-- A system call that may block. -/
theorem performBlocking (hA : ∀ l, l.IsPlain → A l) (call : Syscall)
    (hV : ∀ l, (Operation.syscall call).Revises k l → A l)
    (hon : ∀ kind id, call.object? = some (kind, id) → ∀ l, l.Changes kind id → A l) (hcall : call.mayBlock = true) :
    Blocks A k (k.perform call).kernel := by
  cases call with
  | waitThreadEnd id timeoutAddress callbacks => exact waitThreadEnd hA id timeoutAddress callbacks
  | sleepThread callbacks =>
    exact sleepThread (fun id hc l hl => hV l (Or.inr (Or.inl ⟨id, hc, hl⟩))) callbacks
  | delayThread micros callbacks => exact delayThread hA micros.toUInt64 callbacks
  | waitSemaphore id need timeoutAddress callbacks =>
    exact waitSemaphore hA (hon _ id rfl) need timeoutAddress callbacks
  | waitEventFlag id r timeoutAddress callbacks =>
    exact waitEventFlag hA (hon _ id rfl) r timeoutAddress callbacks
  | lockMutex id count timeoutAddress callbacks =>
    exact lockMutex hA (hon _ id rfl) count timeoutAddress callbacks
  | sendPipe id r timeoutAddress callbacks => exact sendPipe hA (hon _ id rfl) r timeoutAddress callbacks
  | receivePipe id r timeoutAddress callbacks => exact receivePipe hA (hon _ id rfl) r timeoutAddress callbacks
  | _ => cases hcall

/-- A system call that cancels nothing. -/
theorem perform (hA : ∀ l, l.IsPlain → A l) (call : Syscall) (hS : ∀ l, (Operation.syscall call).Arranges k l → A l)
    (hV : ∀ l, (Operation.syscall call).Revises k l → A l) (hR : call.reserves = true → ∀ l, l.Reserves → A l)
    (hcreate : ∀ x, x.id = k.nextId → call.creates? = some x.kind → A (.create x))
    (hon : ∀ kind id, call.object? = some (kind, id) → ∀ l, l.Changes kind id → A l)
    (hdel : ∀ kind id, call.deletes? = some (kind, id) → ∀ l, l.Erases kind id → A l) (hcall : call.isCancel = false) :
    Moves A ⟨k, []⟩ ⟨(k.perform call).kernel, []⟩ := by
  have hmake {kind : ObjectKind} (hkind : call.creates? = some kind) (x : Object) (hx : x.id = k.nextId)
      (hxk : x.kind = kind) : A (.create x) := hcreate x hx (hxk.symm ▸ hkind)
  have hcount {id : ThreadId} (hid : call.counts? k = some id) (l : Label) (hl : l.Counts id) : A l :=
    hV l (Or.inr (Or.inl ⟨id, hid, hl⟩))
  have hT (ha : call.attaches = true) (l : Label) (hl : l.Attaches) : A l :=
    hV l (Or.inr (Or.inr (Or.inl ⟨ha, hl⟩)))
  by_cases hblock : call.mayBlock = true
  · exact (performBlocking hA call hV hon hblock).moves hA fun id w hc => hS (.park id w) ⟨hblock, hc⟩
  cases call with
  | createThread name entry priority stackSize attributes =>
    exact createThread hA (hR rfl .reserve trivial) (hmake rfl) name entry priority stackSize attributes
  | deleteThread id => exact deleteDormant hA (hR rfl) (hT rfl) fun exitCode => hS (.retire id exitCode) rfl
  | startThread id argumentLength argumentAddress =>
    exact startThread hA (hS (.launch id) rfl) argumentLength argumentAddress
  | exitThread exitCode => exact exitCurrent hA (fun id exitCode hc => hS (.retire id exitCode) hc) exitCode
  | exitDeleteThread exitCode =>
    have hretire : ∀ id exitCode, k.current = some id → A (.retire id exitCode) :=
      fun id exitCode hc => hS (.retire id exitCode) hc
    exact (exitCurrent hA hretire exitCode).andThen fun id _ hid =>
      deleteThread hA (hR rfl) (hT rfl) fun exitCode => hretire id exitCode (Kernel.current_of_exitCurrent hid)
  | terminateThread id =>
    exact onOther id (terminateThread hA fun exitCode => hS (.retire id exitCode) rfl)
  | terminateDeleteThread id =>
    have hretire : ∀ exitCode, A (.retire id exitCode) := fun exitCode => hS (.retire id exitCode) rfl
    exact (onOther id (terminateThread hA hretire)).andThen fun _ _ _ => deleteThread hA (hR rfl) (hT rfl) hretire
  | changeThreadPriority id priority =>
    exact onThread (fun k id => k.restorePriority id priority) id fun x hx =>
      restorePriority (fun l hl => hV l (Or.inl ⟨x, hx, hl⟩)) priority
  | threadId => exact .refl _
  | threadCurrentPriority => exact .refl _
  | threadExitStatus id =>
    exact onThread (fun k id => k.answer (k.exitStatus id)) id fun _ _ => .refl _
  | wakeupThread id =>
    exact onThread _ id fun x hx =>
      wakeupThread hA (hcount hx) fun w hw => hS (.detach x w) (Or.inr ⟨hw, hx⟩)
  | cancelWakeupThread id => exact onThread _ id fun x hx => cancelWakeup (hcount hx)
  | suspendThread id => exact onOther id (suspendThread hA (hS (.hold id) rfl))
  | resumeThread id => exact onOther id (resumeThread hA (hS (.unhold id) rfl))
  | createCallback name entry commonArgument =>
    exact createCallback hA (hT rfl) (hmake rfl) name entry commonArgument
  | deleteCallback id => exact deleteCallback hA (hT rfl) id
  | notifyCallback id argument =>
    exact notifyCallback hA fun l hl => hV l (Or.inr (Or.inr (Or.inr (Or.inl ⟨id, argument, rfl, hl⟩))))
  | checkCallback => exact checkCallbacks (hT rfl)
  | createSemaphore name attributes initialCount maxCount =>
    exact createSemaphore hA (hmake rfl) name attributes initialCount maxCount
  | deleteSemaphore id => exact deleteSemaphore hA (hdel _ id rfl)
  | signalSemaphore id amount => exact signalSemaphore hA (hon _ id rfl) amount
  | pollSemaphore id need => exact pollSemaphore (hon _ id rfl) need
  | referSemaphore id address => exact referSemaphore hA address
  | createEventFlag name attributes initialPattern =>
    exact createEventFlag hA (hmake rfl) name attributes initialPattern
  | deleteEventFlag id => exact deleteEventFlag hA (hdel _ id rfl)
  | setEventFlag id bits => exact setEventFlag hA (hon _ id rfl) bits
  | clearEventFlag id bits => exact clearEventFlag (hon _ id rfl) bits
  | pollEventFlag id r => exact pollEventFlag hA (hon _ id rfl) r
  | referEventFlag id address => exact referEventFlag hA address
  | createMutex name attributes initialCount => exact createMutex hA (hmake rfl) name attributes initialCount
  | deleteMutex id => exact deleteMutex hA (hdel _ id rfl)
  | tryLockMutex id count => exact tryLockMutex (hon _ id rfl) count
  | unlockMutex id count => exact unlockMutex hA (hon _ id rfl) count
  | referMutex id address => exact referMutex hA address
  | createPipe name partition attributes size =>
    exact createPipe hA (hR rfl .reserve trivial) (hmake rfl) name partition attributes size
  | deletePipe id => exact deletePipe hA (hR rfl .reserve trivial) (hdel _ id rfl)
  | trySendPipe id r => exact trySendPipe hA (hon _ id rfl) r
  | tryReceivePipe id r => exact tryReceivePipe hA (hon _ id rfl) r
  | referPipe id address => exact referPipe hA address
  | systemTime => exact .refl _
  | systemTimeLow => exact .refl _
  | writeSystemTime address => exact quiet hA (Kernel.Quiet.withMemory k _)
  | allocateMemory partition name kind size address =>
    exact allocateMemory hA (hR rfl .reserve trivial) (hmake rfl) partition name kind size address
  | freeMemory id => exact freeMemory hA (hR rfl .reserve trivial) (hdel _ id rfl)
  | blockAddress id => exact .refl _
  | maxFreeMemory => exact .refl _
  | totalFreeMemory => exact .refl _
  | cancelSemaphore | cancelEventFlag | cancelMutex | cancelPipe => cases hcall
  | _ => exact absurd rfl hblock

/-- A system call that cancels the waits on an object. -/
theorem performCancel (hA : ∀ l, l.IsPlain → A l) (call : Syscall)
    (hon : ∀ kind id, call.object? = some (kind, id) → ∀ l, l.Changes kind id → A l) (hcall : call.isCancel = true) :
    ∃ L, Moves A ⟨k, []⟩ ⟨(k.perform call).kernel, L⟩ ∧ ((k.perform call).result.isOk = true → L = []) := by
  have hmap : ∀ r : Reply Unit, Drains A k r → ∃ L, Moves A ⟨k, []⟩ ⟨(r.map fun _ => Answer.done).kernel, L⟩ ∧
      ((r.map fun _ => Answer.done).result.isOk = true → L = []) := by
    rintro r ⟨L, hm, hL⟩
    refine ⟨L, hm, fun hok => hL ?_⟩
    unfold Reply.map at hok
    cases hr : r.result with
    | ok u => rfl
    | error e =>
      rw [hr] at hok
      cases hok
  cases call with
  | cancelSemaphore id count waitingAddress =>
    exact hmap _ (cancelSemaphore hA (hon _ id rfl) count waitingAddress)
  | cancelEventFlag id pattern waitingAddress =>
    exact hmap _ (cancelEventFlag hA (hon _ id rfl) pattern waitingAddress)
  | cancelMutex id count waitingAddress => exact hmap _ (cancelMutex hA (hon _ id rfl) count waitingAddress)
  | cancelPipe id sendersAddress receiversAddress =>
    exact hmap _ (cancelPipe hA (hon _ id rfl) sendersAddress receiversAddress)
  | _ => cases hcall

end Moves

/-- The blocks that a thread holds. -/
def Thread.blocks (t : Thread) : List Block := t.stack.toList ++ t.localStorage.toList

namespace Kernel

variable {k : Kernel} {k₁ k₂ k₃ k' : Kernel} {R : Thread → Thread → Prop} {t : Thread} {x : ObjectId} {o o' : Object}

/-! ### What no move but a few does -/

/-- No id has been handed out, no object has been registered, and the started threads are the same. -/
def NoneNew (k k' : Kernel) : Prop :=
  k'.nextId = k.nextId ∧ k'.started = k.started ∧ ∀ x, k.objects.get? x = none → k'.objects.get? x = none

theorem NoneNew.trans (h : NoneNew k₁ k₂) (h' : NoneNew k₂ k₃) : NoneNew k₁ k₃ :=
  ⟨h'.1.trans h.1, h'.2.1.trans h.2.1, fun x hx => h'.2.2 x (h.2.2 x hx)⟩

theorem NoneNew.nodup (h : NoneNew k k') (hn : k.started.Nodup) : k'.started.Nodup := by
  rw [h.2.1]
  exact hn

/-- A thread that is stored again, as seen by every object. -/
theorem threads_putThread (t' : Thread) (ht : k.thread? t.id = some t)
    (hid : t'.id = t.id) (hR : R t t') (x : ObjectId) :
    (k.putThread t').objects.get? x = k.objects.get? x ∨ ∃ u u', k.objects.get? x = some (.thread u) ∧
      (k.putThread t').objects.get? x = some (.thread u') ∧ R u u' := by
  have hget : (k.putThread t').objects.get? x = if t'.id = x then some (.thread t') else k.objects.get? x :=
    ObjectTable.get?_put ..
  rw [hget]
  split
  · next hx => exact Or.inr ⟨t, t', hx ▸ hid ▸ ObjectTable.thread?_eq_some.mp ht, rfl, hR⟩
  · exact Or.inl rfl

/-- What becomes of one object where at most threads differ, and what becomes of it then. -/
theorem threads_trans (hR : ∀ {t t' t''}, R t t' → R t' t'' → R t t'')
    {a b c : Option Object} (h : b = a ∨ ∃ t t', a = some (.thread t) ∧ b = some (.thread t') ∧ R t t')
    (h' : c = b ∨ ∃ t t', b = some (.thread t) ∧ c = some (.thread t') ∧ R t t') :
    c = a ∨ ∃ t t', a = some (.thread t) ∧ c = some (.thread t') ∧ R t t' := by
  obtain rfl | ⟨t, t', ht, ht', hfirst⟩ := h
  · exact h'
  obtain rfl | ⟨u, u', hu, hu', hsecond⟩ := h'
  · exact Or.inr ⟨t, t', ht, ht', hfirst⟩
  · cases ht'.symm.trans hu
    exact Or.inr ⟨t, u', ht, hu', hR hfirst hsecond⟩

/-- At most registered threads differ, and not in the blocks they hold, the scheduler, contexts, the clock and the
journal. -/
structure OnlyThreads (k k' : Kernel) : Prop where
  config : k'.config = k.config
  partitions : k'.partitions = k.partitions
  nextId : k'.nextId = k.nextId
  started : k'.started = k.started
  objects : ∀ x, k'.objects.get? x = k.objects.get? x ∨ ∃ t t', k.objects.get? x = some (.thread t) ∧
    k'.objects.get? x = some (.thread t') ∧ t'.blocks = t.blocks

theorem OnlyThreads.of_objects (h : k'.objects = k.objects) (hs : k'.started = k.started)
    (hp : k'.partitions = k.partitions) (hc : k'.config = k.config) : OnlyThreads k k' :=
  ⟨hc, hp, congrArg ObjectTable.nextId h, hs, fun x => Or.inl (by rw [h])⟩

/-- What changes threads only may be repeated. -/
theorem OnlyThreads.trans (h : OnlyThreads k₁ k₂) (h' : OnlyThreads k₂ k₃) : OnlyThreads k₁ k₃ where
  config := h'.config.trans h.config
  partitions := h'.partitions.trans h.partitions
  nextId := h'.nextId.trans h.nextId
  started := h'.started.trans h.started
  objects x := threads_trans (fun hb hb' => hb'.trans hb) (h.objects x) (h'.objects x)

theorem OnlyThreads.noneNew (h : OnlyThreads k k') : NoneNew k k' := by
  refine ⟨h.nextId, h.started, fun x hx => ?_⟩
  obtain heq | ⟨t, -, ht, -⟩ := h.objects x
  · exact heq.trans hx
  · rw [hx] at ht
    cases ht

/-- The other objects are as they were. -/
theorem OnlyThreads.get?_eq (h : OnlyThreads k k')
    (ho : k'.objects.get? x = some o) (hk : o.kind ≠ .thread) : k.objects.get? x = some o := by
  obtain heq | ⟨t, t', -, ht', -⟩ := h.objects x
  · exact heq.symm.trans ho
  · rw [ho, Option.some.injEq] at ht'
    exact absurd rfl (ht' ▸ hk)

theorem SameObjects.onlyThreads (h : SameObjects k k') (hp : k'.partitions = k.partitions) : OnlyThreads k k' :=
  .of_objects h.objects h.started hp h.config

theorem Reloads.onlyThreads (h : Reloads k k') : OnlyThreads k k' :=
  h.toSameObjects.onlyThreads h.partitions

/-- Storing another version of a registered object registers none. -/
theorem get?_put_eq_none (ho : k.objects.get? o.id = some o) (hid : o'.id = o.id)
    (hx : k.objects.get? x = none) : (k.put o').objects.get? x = none := by
  refine (ObjectTable.get?_put ..).trans ((if_neg ?_).trans hx)
  rintro rfl
  rw [hid, ho] at hx
  cases hx

theorem noneNew_put (ho : k.objects.get? o.id = some o) (hid : o'.id = o.id) : NoneNew k (k.put o') :=
  ⟨rfl, rfl, fun _ => get?_put_eq_none ho hid⟩

theorem onlyThreads_putThread (t' : Thread) (ht : k.thread? t.id = some t) (hid : t'.id = t.id)
    (hb : t'.blocks = t.blocks) : OnlyThreads k (k.putThread t') :=
  ⟨rfl, rfl, rfl, rfl, threads_putThread t' ht hid hb⟩

theorem onlyThreads_schedule (k : Kernel) (id : ThreadId) (priority : UInt32) :
    OnlyThreads k (k.schedule id priority) :=
  .of_objects (objects_schedule k id priority) (started_schedule k id priority) (partitions_schedule k id priority)
    (config_schedule k id priority)

theorem onlyThreads_wake (k : Kernel) (id : ThreadId) (result : Int32) : OnlyThreads k (k.wake id result) := by
  obtain ⟨e, heq, -⟩ | ⟨t, w, rfl, ht, hw⟩ := wake_cases k id result
  · rw [heq]
    exact .of_objects rfl rfl rfl rfl
  · have hput : OnlyThreads k (k.putThread (t.unpark result)) := onlyThreads_putThread _ ht rfl rfl
    refine OnlyThreads.trans ?_ (wake_of_waiting ht hw result).onlyThreads
    unfold awaken
    split
    · exact hput
    · exact hput.trans (onlyThreads_schedule ..)

theorem onlyThreads_wakeAll (k : Kernel) (ids : List ThreadId) (result : Int32) :
    OnlyThreads k (k.wakeAll ids result) := by
  unfold wakeAll
  induction ids generalizing k with
  | nil => exact .of_objects rfl rfl rfl rfl
  | cons id rest ih => exact (onlyThreads_wake k id result).trans (ih _)

theorem OnlyThreads.andThen {α β : Type} {reply : Reply α} {next : α → Kernel → Reply β}
    (h : OnlyThreads k reply.kernel) (hnext : ∀ a k, OnlyThreads k (next a k).kernel) :
    OnlyThreads k (reply.andThen next).kernel := by
  obtain ⟨e, -, heq, -⟩ | ⟨a, -, heq⟩ := reply.kernel_andThen next <;> rw [heq]
  · exact h
  · exact h.trans (hnext a reply.kernel)

theorem noneNew_detach (k : Kernel) (id : ThreadId) (w : Wait) : NoneNew k (k.detach id w) := by
  obtain h | ⟨e, -, h⟩ | ⟨o, ho, -, -, -, h⟩ := detach_cases k id w <;> rw [h]
  · exact ⟨rfl, rfl, fun _ hx => hx⟩
  · exact ⟨rfl, rfl, fun _ hx => hx⟩
  · have hid := ObjectTable.id_of_get? ho
    exact noneNew_put (hid.symm ▸ ho) (Object.id_removeWaiter o id)

theorem noneNew_retire (ht : k.thread? t.id = some t) (exitCode : Int32) : NoneNew k (k.retire t exitCode) := by
  have hcurrent : ∀ k' : Kernel, NoneNew k k' →
      NoneNew k (if k'.current = some t.id then { k' with current := none } else k') := by
    intro k' h
    split <;> exact h
  have hdie : NoneNew k (k.putThread (t.die exitCode)) := (onlyThreads_putThread (t.die exitCode) ht rfl rfl).noneNew
  unfold retire
  apply hcurrent
  split
  · next w _ =>
    exact hdie.trans (noneNew_detach { k.putThread (t.die exitCode) with ready := k.ready.remove t.id } t.id w)
  · exact hdie

theorem onlyThreads_park (ht : k.thread? t.id = some t) (w : Wait) : OnlyThreads k (k.park t w) :=
  { onlyThreads_putThread (t.park w) ht rfl rfl with }

end Kernel

/-- The thread holds the same blocks, has the same wait, is joined by the same threads and has not fallen dormant. -/
structure Thread.SameTies (t t' : Thread) : Prop where
  blocks : t'.blocks = t.blocks
  wait : t'.wait = t.wait
  exitWaiters : t'.exitWaiters = t.exitWaiters
  dormant : t'.isDormant = true → t.isDormant = true

theorem Thread.SameTies.trans {t₁ t₂ t₃ : Thread} (h : t₁.SameTies t₂) (h' : t₂.SameTies t₃) : t₁.SameTies t₃ :=
  ⟨h'.blocks.trans h.blocks, h'.wait.trans h.wait, h'.exitWaiters.trans h.exitWaiters,
    fun hd => h.dormant (h'.dormant hd)⟩

namespace Kernel

variable {k : Kernel} {k' : Kernel} {t : Thread}

/-- At most the scheduler has been at work: registered threads differ in what it keeps of them and in nothing that ties
them to other objects. -/
structure Rearranges (k k' : Kernel) : Prop where
  config : k'.config = k.config
  partitions : k'.partitions = k.partitions
  nextId : k'.nextId = k.nextId
  started : k'.started = k.started
  objects : ∀ x, k'.objects.get? x = k.objects.get? x ∨ ∃ t t', k.objects.get? x = some (.thread t) ∧
    k'.objects.get? x = some (.thread t') ∧ t.SameTies t'
  calm : ∀ e ∈ k'.journal, e ∈ k.journal ∨ e.miswoken = false
  contexts : k'.contexts = k.contexts

theorem Rearranges.onlyThreads (h : Rearranges k k') : OnlyThreads k k' where
  config := h.config
  partitions := h.partitions
  nextId := h.nextId
  started := h.started
  objects x := (h.objects x).imp_right fun ⟨t, t', ht, ht', hties⟩ => ⟨t, t', ht, ht', hties.blocks⟩

theorem Rearranges.of_objects (h : k'.objects = k.objects) (hs : k'.started = k.started)
    (hp : k'.partitions = k.partitions) (hc : k'.config = k.config)
    (hcalm : ∀ e ∈ k'.journal, e ∈ k.journal ∨ e.miswoken = false) (hx : k'.contexts = k.contexts) : Rearranges k k' :=
  ⟨hc, hp, congrArg ObjectTable.nextId h, hs, fun x => Or.inl (by rw [h]), hcalm, hx⟩

theorem Rearranges.trans {k₁ k₂ k₃ : Kernel} (h : Rearranges k₁ k₂) (h' : Rearranges k₂ k₃) : Rearranges k₁ k₃ := by
  refine ⟨h'.config.trans h.config, h'.partitions.trans h.partitions, h'.nextId.trans h.nextId,
    h'.started.trans h.started, fun x => threads_trans .trans (h.objects x) (h'.objects x), fun e he => ?_,
    h'.contexts.trans h.contexts⟩
  rcases h'.calm e he with he | hno
  · exact h.calm e he
  · exact Or.inr hno

theorem rearranges_putThread (t' : Thread) (ht : k.thread? t.id = some t) (hid : t'.id = t.id)
    (hties : t.SameTies t') : Rearranges k (k.putThread t') :=
  ⟨rfl, rfl, rfl, rfl, threads_putThread t' ht hid hties, fun _ => Or.inl, rfl⟩

theorem rearranges_schedule (k : Kernel) (id : ThreadId) (priority : UInt32) :
    Rearranges k (k.schedule id priority) := by
  refine .of_objects (objects_schedule k id priority) (started_schedule k id priority)
    (partitions_schedule k id priority) (config_schedule k id priority) (fun e he => ?_) (contexts_schedule k id priority)
  unfold Kernel.schedule at he
  split at he
  · have hquiet := calm_noteAll k (isAlarm_insertEvents k.ready id priority) e he
    exact hquiet.imp_right fun hno => (Bool.or_eq_false_iff.mp hno).2
  · rcases List.mem_cons.mp he with rfl | he
    · exact Or.inr rfl
    · exact Or.inl he

theorem rearranges_hold (ht : k.thread? t.id = some t) : Rearranges k (k.hold t) := by
  have hput : Rearranges k (k.putThread { t with status := t.status.suspend }) := by
    refine rearranges_putThread _ ht rfl ⟨rfl, rfl, rfl, fun hd => absurd hd ?_⟩
    show t.status.suspend.dormant ≠ true
    unfold ThreadStatus.suspend
    split <;> decide
  exact { hput with }

theorem rearranges_reprioritise (ht : k.thread? t.id = some t) (priority : UInt32) :
    Rearranges k (k.reprioritise t priority) := by
  have hput : Rearranges k (k.putThread { t with priority }) :=
    rearranges_putThread _ ht rfl ⟨rfl, rfl, rfl, fun hd => hd⟩
  unfold reprioritise
  dsimp only
  split
  · have hready : Rearranges k { k.putThread { t with priority } with ready := k.ready.remove t.id } :=
      { hput with }
    exact hready.trans (rearranges_schedule ..)
  · exact hput

theorem rearranges_unhold (ht : k.thread? t.id = some t) : Rearranges k (k.unhold t) := by
  unfold unhold
  dsimp only
  split
  · have hput : Rearranges k (k.putThread { t with status := .onlyReady }) :=
      rearranges_putThread _ ht rfl ⟨rfl, rfl, rfl, nofun⟩
    exact hput.trans (rearranges_schedule ..)
  · exact rearranges_putThread _ ht rfl ⟨rfl, rfl, rfl, fun hd => hd⟩

theorem rearranges_preempt (k : Kernel) : Rearranges k k.preempt := by
  have hclear : Rearranges k { k with current := none } := .of_objects rfl rfl rfl rfl (fun e he => Or.inl he) rfl
  unfold preempt
  split
  · exact .of_objects rfl rfl rfl rfl (fun e he => Or.inl he) rfl
  · dsimp only
    split
    · exact hclear
    · next t ht =>
      have hid := id_of_thread? ht
      subst hid
      split
      · have hput : Rearranges { k with current := none }
            (({ k with current := none } : Kernel).putThread { t with status := .onlyReady }) :=
          rearranges_putThread _ ht rfl ⟨rfl, rfl, rfl, nofun⟩
        exact (hclear.trans hput).trans (rearranges_schedule ..)
      · exact hclear

theorem rearranges_note {e : Event} (he : e.miswoken = false) : Rearranges k (k.note e) := by
  refine .of_objects rfl rfl rfl rfl (fun e' he' => ?_) rfl
  rcases List.mem_cons.mp he' with rfl | he'
  · exact Or.inr he
  · exact Or.inl he'

theorem rearranges_runFirst (k : Kernel) (entries : List ReadyEntry) : Rearranges k (k.runFirst entries).2 := by
  induction entries generalizing k with
  | nil => exact .of_objects rfl rfl rfl rfl (fun e he => Or.inl he) rfl
  | cons e rest ih =>
    unfold runFirst
    split
    · exact (rearranges_note rfl).trans (ih _)
    · next t ht =>
      have hput : Rearranges k (k.putThread { t with status := .onlyRunning }) :=
        rearranges_putThread (t := t) _ (thread?_id ht) rfl ⟨rfl, rfl, rfl, nofun⟩
      dsimp only
      split
      · exact { hput.trans (rearranges_note rfl) with }
      · exact (hput.trans (rearranges_note rfl)).trans (ih _)

theorem rearranges_interrupt (ht : k.thread? t.id = some t) (d : Delivery) : Rearranges k (k.interrupt t d) := by
  unfold interrupt
  dsimp only
  split
  · have hput : Rearranges k (k.putThread { t with status := .onlyRunning }) :=
      rearranges_putThread _ ht rfl ⟨rfl, rfl, rfl, nofun⟩
    exact { hput with }
  · exact .of_objects rfl rfl rfl rfl (fun e he => Or.inl he) rfl

theorem objects_launch (k : Kernel) (t : Thread) (context : ContextId) : (k.launch t context).objects =
    (k.putThread { t with context := some context, status := .onlyReady }).objects := by
  unfold launch
  rw [objects_schedule]
  split <;> rfl

theorem started_launch (k : Kernel) (t : Thread) (context : ContextId) :
    (k.launch t context).started = if t.id ∈ k.started then k.started else k.started ++ [t.id] := by
  unfold launch
  rw [started_schedule]
  have hput : (k.putThread { t with context := some context, status := .onlyReady }).started = k.started := rfl
  rw [hput]
  by_cases hmem : t.id ∈ k.started
  · rw [if_pos (List.contains_iff_mem.mpr hmem), if_pos hmem]
    rfl
  · rw [if_neg (fun hc => hmem (List.contains_iff_mem.mp hc)), if_neg hmem]

end Kernel

namespace Move

variable {l : Label} {s s' : Stage}

theorem rearranges (h : Move l s s') (hl : l.Rearranges) : s.kernel.Rearranges s'.kernel := by
  cases h with
  | reprioritise ht => exact Kernel.rearranges_reprioritise ht _
  | hold ht => exact Kernel.rearranges_hold ht
  | unhold ht => exact Kernel.rearranges_unhold ht
  | preempt => exact Kernel.rearranges_preempt _
  | run => exact Kernel.rearranges_runFirst ..
  | interrupt hd hc ht => exact Kernel.rearranges_interrupt ht _
  | endDelivery | dropDelivery => exact .of_objects rfl rfl rfl rfl (fun e he => Or.inl he) rfl
  | _ => cases hl

theorem onlyThreads (h : Move l s s') (hl : l.OnlyThreads) : s.kernel.OnlyThreads s'.kernel := by
  have hrearranges := h.rearranges
  cases h with
  | quiet h | load h => exact h.onlyThreads
  | resource h hp => exact h.onlyThreads hp
  | @edit k L t t' ht h => exact Kernel.onlyThreads_putThread t' ht (by rw [h]) (by rw [h]; rfl)
  | park hd hc ht => exact Kernel.onlyThreads_park ht _
  | doze => exact .of_objects rfl rfl rfl rfl
  | wake => exact Kernel.onlyThreads_wake ..
  | _ => exact (hrearranges hl).onlyThreads

/-- Most moves hand out no id and register nothing; the others make an object, start a thread or unregister
something. -/
theorem noneNew (h : Move l s s') : s.kernel.NoneNew s'.kernel ∨
    (∃ o, l = .create o ∧ o.id = s.kernel.nextId ∧
      s'.kernel = { s.kernel with objects := s.kernel.objects.skipId.put o }) ∨
    (s'.kernel.nextId = s.kernel.nextId ∧ (∀ x, s.kernel.objects.get? x = none → s'.kernel.objects.get? x = none) ∧
      (s.kernel.started.Nodup → s'.kernel.started.Nodup)) := by
  have honly := h.onlyThreads
  cases h with
  | reserve h => exact Or.inl ⟨h.nextId, h.started, fun x hx => by rwa [h.objects]⟩
  | create hid => exact Or.inr (Or.inl ⟨_, rfl, hid, rfl⟩)
  | @erase k o ho hkind =>
    refine Or.inr (Or.inr ⟨rfl, fun x hx => ?_, fun hn => hn⟩)
    exact (ObjectTable.get?_erase ..).trans (ite_eq_left_iff.mpr fun _ => hx)
  | change ho h => exact Or.inl (Kernel.noneNew_put ho h.id_eq)
  | enqueue ho ht hw h => exact Or.inl (Kernel.noneNew_put ho h.id_eq)
  | @launch k L t registers ht hs =>
    have hput := (Kernel.onlyThreads_putThread
      { t with context := some k.contexts.freshId, status := .onlyReady } ht rfl rfl).noneNew
    refine Or.inr (Or.inr ⟨?_, fun x hx => ?_, fun hn => ?_⟩)
    · exact (congrArg ObjectTable.nextId (Kernel.objects_launch ..)).trans hput.1
    · show (Kernel.objects (Kernel.launch ..)).get? x = none
      rw [Kernel.objects_launch]
      exact hput.2.2 x hx
    · show (Kernel.started (Kernel.launch ..)).Nodup
      rw [Kernel.started_launch]
      show (if t.id ∈ k.started then k.started else k.started ++ [t.id]).Nodup
      split
      · exact hn
      · next hnot =>
        refine List.nodup_append.mpr ⟨hn, List.pairwise_singleton _ _, fun a ha b hb => ?_⟩
        rw [List.mem_singleton.mp hb]
        exact fun hab => hnot (hab ▸ ha)
  | detach => exact Or.inl (Kernel.noneNew_detach ..)
  | retire ht => exact Or.inl (Kernel.noneNew_retire ht _)
  | @strip k L t contexts ht =>
    have hput : k.NoneNew (k.put (.thread t.strip)) :=
      Kernel.noneNew_put (o := .thread t) (ObjectTable.thread?_eq_some.mp ht) rfl
    exact Or.inl hput
  | bury =>
    refine Or.inr (Or.inr ⟨rfl, fun x hx => ?_, fun hn => hn.filter _⟩)
    exact (ObjectTable.get?_erase ..).trans (ite_eq_left_iff.mpr fun _ => hx)
  | _ => exact Or.inl (honly trivial).noneNew

/-- A move hands out an id only to make an object under it. -/
theorem nextId (h : Move l s s') : s'.kernel.nextId = s.kernel.nextId ∨
    ∃ o, l = .create o ∧ o.id = s.kernel.nextId ∧ s'.kernel.nextId = s.kernel.nextId + 1 := by
  obtain h | ⟨o, hl, hid, hs'⟩ | h := h.noneNew
  · exact Or.inl h.1
  · exact Or.inr ⟨o, hl, hid, congrArg Kernel.nextId hs'⟩
  · exact Or.inl h.1

theorem nodup_started (h : Move l s s') (hn : s.kernel.started.Nodup) : s'.kernel.started.Nodup := by
  obtain h | ⟨o, -, -, hs'⟩ | h := h.noneNew
  · exact h.nodup hn
  · rw [hs']
    exact hn
  · exact h.2.2 hn

end Move

namespace Moves

variable {A : Label → Prop} {C : Object → Prop} {s s' : Stage} {n : ObjectId}

/-- Once an object has been made under `n`, the next id is another one and stays. -/
theorem nextId_stays (hA : ∀ x, ¬ A (.create x)) (hC : ∀ x, C x → x.id = n)
    (h : Moves (fun l => A l ∨ ∃ x, l = .create x ∧ C x) s s') (hs : s.kernel.nextId = n + 1) :
    s'.kernel.nextId = n + 1 := by
  refine h.preserves (P := fun s => s.kernel.nextId = n + 1) (fun l s₁ s₂ hl hm h₁ => ?_) hs
  obtain heq | ⟨o, rfl, ho, -⟩ := hm.nextId
  · exact heq.trans h₁
  · exfalso
    obtain hno | ⟨x, hx, hc⟩ := hl
    · exact hA o hno
    · cases hx
      have hne : n ≠ n + 1 := by simp
      exact hne ((hC o hc).symm.trans (ho.trans h₁))

/-- Moves that make objects under `n` alone make at most one, and the next id tells. -/
theorem create_once (hA : ∀ x, ¬ A (.create x)) (hC : ∀ x, C x → x.id = n)
    (h : Moves (fun l => A l ∨ ∃ x, l = .create x ∧ C x) s s') (hs : s.kernel.nextId = n ∨ s.kernel.nextId = n + 1) :
    (s'.kernel.nextId = n ∨ s'.kernel.nextId = n + 1) ∧
      Moves (fun l => A l ∨ ∃ x, l = .create x ∧ C x ∧ s'.kernel.nextId = n + 1) s s' := by
  induction h with
  | refl s => exact ⟨hs, .refl s⟩
  | @step l s₁ s₂ s₃ hl hm hrest ih =>
    obtain hno | ⟨x, rfl, hc⟩ := hl
    · have heq : s₂.kernel.nextId = s₁.kernel.nextId := by
        obtain heq | ⟨o, rfl, -⟩ := hm.nextId
        · exact heq
        · exact absurd hno (hA o)
      obtain ⟨hs₃, hmoves⟩ := ih (heq ▸ hs)
      exact ⟨hs₃, .step (Or.inl hno) hm hmoves⟩
    · have heq : s₂.kernel.nextId = n + 1 := by
        cases hm with
        | create hid' => exact congrArg (· + 1) (hid'.symm.trans (hC x hc))
      have hs₃ := nextId_stays hA hC hrest heq
      exact ⟨Or.inr hs₃, .step (Or.inr ⟨x, rfl, hc, hs₃⟩) hm (ih (Or.inr heq)).2⟩

end Moves

namespace Kernel

variable {k : Kernel} {P : Kernel → Prop} {Q : Kernel → Operation → Prop}

/-- What an operation does, before it is known that it makes one object at most. -/
theorem raw_moves_after (k : Kernel) (o : Operation) (hn : k.started.Nodup) :
    ∃ L, Moves (fun l => (o.Touches l ∧ (l.Schedules → o.Arranges k l) ∧ (l.Revises → o.Revises k l)) ∨
        ∃ x, l = .create x ∧ o.creates? = some x.kind ∧ x.id = k.nextId) ⟨k, []⟩ ⟨k.after o, L⟩ ∧
      (k.failsCancel o = false → L = []) := by
  generalize hB : (fun l => (o.Touches l ∧ (l.Schedules → o.Arranges k l) ∧ (l.Revises → o.Revises k l)) ∨
    ∃ x, l = .create x ∧ o.creates? = some x.kind ∧ x.id = k.nextId) = A
  have htouch : ∀ l : Label, o.Touches l → ¬ l.Schedules → ¬ l.Revises → A l := by
    rintro l h hs hv
    subst hB
    exact Or.inl ⟨h, fun hl => absurd hl hs, fun hl => absurd hl hv⟩
  have hA : ∀ l : Label, l.IsPlain → A l := fun l h => htouch l (Or.inl h.isRoutine) h.not_schedules h.not_revises
  have hS : ∀ l : Label, o.Arranges k l → A l := by
    rintro l h
    subst hB
    exact Or.inl ⟨Or.inl h.isRoutine, fun _ => h, fun hv => absurd hv h.not_revises⟩
  have hV : ∀ l : Label, o.Revises k l → A l := by
    rintro l h
    subst hB
    exact Or.inl ⟨Or.inl h.revises.isRoutine, fun hs => absurd hs h.revises.not_schedules, fun _ => h⟩
  have hR : o.reserves = true → ∀ l : Label, l.Reserves → A l :=
    fun ho l h => htouch l (Or.inr (Or.inr (Or.inr (Or.inl ⟨ho, h⟩)))) h.not_schedules h.not_revises
  have hL : o.loads = true → ∀ l : Label, l.Loads → A l :=
    fun ho l h => htouch l (Or.inr (Or.inr (Or.inr (Or.inr (Or.inr ⟨ho, h⟩))))) h.not_schedules h.not_revises
  cases o with
  | syscall call =>
    have hcreate : ∀ x : Object, x.id = k.nextId → call.creates? = some x.kind → A (.create x) := by
      rintro x h hkind
      subst hB
      exact Or.inr ⟨x, rfl, hkind, h⟩
    have hon : ∀ kind id, call.object? = some (kind, id) → ∀ l : Label, l.Changes kind id → A l :=
      fun kind id hid l hl => htouch l (Or.inr (Or.inl ⟨kind, id, hid, hl⟩)) hl.not_schedules
        (hl.not_revises (Syscall.kind_of_object? hid))
    have hdel : ∀ kind id, call.deletes? = some (kind, id) → ∀ l : Label, l.Erases kind id → A l :=
      fun kind id hid l hl => htouch l (Or.inr (Or.inr (Or.inl ⟨kind, id, hid, hl⟩))) hl.not_schedules
        (hl.not_revises (Syscall.kind_of_deletes? hid))
    cases hcall : call.isCancel with
    | false => exact ⟨[], .perform hA call hS hV hR hcreate hon hdel hcall, fun _ => rfl⟩
    | true =>
      obtain ⟨L, hm, hL⟩ := Moves.performCancel (k := k) hA call hon hcall
      refine ⟨L, hm, fun hf => hL ?_⟩
      have hf' : (call.isCancel && !(k.perform call).result.isOk) = false := hf
      rw [hcall, Bool.true_and, Bool.not_eq_false'] at hf'
      exact hf'
  | exitThread id exitCode => exact ⟨[], .exitThread hA (fun code => hS (.retire id code) rfl) exitCode, fun _ => rfl⟩
  | deleteThread id =>
    exact ⟨[], .deleteThread hA (hR rfl) (fun l hl => hV l (Or.inr (Or.inr (Or.inl ⟨rfl, hl⟩))))
      fun code => hS (.retire id code) rfl, fun _ => rfl⟩
  | changePriority id priority =>
    exact ⟨[], .changePriority (fun l hl => hV l (Or.inl ⟨id, rfl, hl⟩)) priority, fun _ => rfl⟩
  | suspendThread id => exact ⟨[], .suspendThread hA (hS (.hold id) rfl), fun _ => rfl⟩
  | resumeThread id => exact ⟨[], .resumeThread hA (hS (.unhold id) rfl), fun _ => rfl⟩
  | wakeupThread id =>
    exact ⟨[], .wakeupThread hA (fun l hl => hV l (Or.inr (Or.inl ⟨id, rfl, hl⟩)))
      fun w hw => hS (.detach id w) (Or.inr ⟨hw, rfl⟩), fun _ => rfl⟩
  | cancelWakeup id => exact ⟨[], .cancelWakeup fun l hl => hV l (Or.inr (Or.inl ⟨id, rfl, hl⟩)), fun _ => rfl⟩
  | delayThread ticks callbacks =>
    exact ⟨[], (Moves.delayThread hA ticks callbacks).moves hA fun id w hc => hS (.park id w) ⟨rfl, hc⟩, fun _ => rfl⟩
  | joinThread id timeout timeoutAddress callbacks =>
    exact ⟨[], (Moves.joinThread hA id timeout timeoutAddress callbacks).moves hA
      fun id w hc => hS (.park id w) ⟨rfl, hc⟩, fun _ => rfl⟩
  | terminateThread id => exact ⟨[], .terminateThread hA fun code => hS (.retire id code) rfl, fun _ => rfl⟩
  | finishCallback value =>
    have hE : ∀ l : Label, l.EndsDelivery → A l :=
      fun l h => htouch l (Or.inr (Or.inr (Or.inr (Or.inr (Or.inl ⟨rfl, h⟩))))) h.not_schedules h.not_revises
    have hT : ∀ l : Label, l.Attaches → A l := fun l hl => hV l (Or.inr (Or.inr (Or.inl ⟨rfl, hl⟩)))
    exact ⟨[], .finishCallback hA hE (hL rfl) hT value, fun _ => rfl⟩
  | advanceClock ticks =>
    have hclock : SameObjects k { k with clock := k.clock.advance ticks } :=
      { (Quiet.refl k).toSameObjects with }
    have hdetach : ∀ id w, A (.detach id w) := fun id w => hS (.detach id w) (Or.inl rfl)
    exact ⟨[], (Moves.resource hA hclock rfl rfl).trans (.expireTimeouts hA hdetach hn), fun _ => rfl⟩
  | expireTimeouts => exact ⟨[], .expireTimeouts hA (fun id w => hS (.detach id w) (Or.inl rfl)) hn, fun _ => rfl⟩
  | dispatch =>
    have htake : ∀ l : Label, l.Takes → A l := fun l hl => hV l (Or.inr (Or.inr (Or.inr (Or.inr ⟨rfl, hl⟩))))
    refine ⟨[], .dispatch (hA .quiet trivial) htake (fun l hl => hS l ?_), fun _ => rfl⟩
    cases l <;> first | rfl | cases hl
  | guestWrite address bytes => exact ⟨[], .quiet hA (Quiet.withMemory k _), fun _ => rfl⟩
  | guestRegister context index value =>
    exact ⟨[], .single (hL rfl .load trivial) (.load (Reloads.setRegister k context index value)), fun _ => rfl⟩

/-- **Every operation is a sequence of moves**, and hands out at most one id. -/
theorem moves_after (k : Kernel) (o : Operation) (hn : k.started.Nodup) :
    ((k.after o).nextId = k.nextId ∨ (k.after o).nextId = k.nextId + 1) ∧
      ∃ L, Moves (o.Permits k) ⟨k, []⟩ ⟨k.after o, L⟩ ∧ (k.failsCancel o = false → L = []) := by
  obtain ⟨L, hm, hL⟩ := raw_moves_after k o hn
  obtain ⟨hnext, hmoves⟩ := hm.create_once (fun x h => o.not_touches_create x h.1) (fun _ h => h.2) (Or.inl rfl)
  refine ⟨hnext, L, hmoves.mono ?_, hL⟩
  rintro l (⟨h, hs, hv⟩ | ⟨x, rfl, ⟨hkind, hx⟩, hafter⟩)
  · exact .touch h hs hv
  · exact .create (Operation.object?_of_creates? hkind) hx hafter hkind

theorem nodup_started_after (o : Operation) (hn : k.started.Nodup) : (k.after o).started.Nodup := by
  obtain ⟨-, L, hm, -⟩ := moves_after k o hn
  exact hm.preserves (P := fun s => s.kernel.started.Nodup) (fun _ _ _ _ h => h.nodup_started) hn

/-! ### Runs -/

/-- What every operation preserves, every run preserves. -/
theorem run_keeps (hstep : ∀ k o, k.started.Nodup → P k → P (k.after o))
    (operations : List Operation) (hn : k.started.Nodup) (h : P k) : P (k.run operations) := by
  induction operations generalizing k with
  | nil => exact h
  | cons o rest ih => exact ih (nodup_started_after o hn) (hstep k o hn h)

/-- How many ids operations hand out. -/
def handedOut (k : Kernel) : List Operation → Nat
  | [] => 0
  | o :: rest => (if (k.after o).nextId = k.nextId then 0 else 1) + (k.after o).handedOut rest

/-- A condition holds of each operation of a run and the kernel it starts in. -/
def Along (Q : Kernel → Operation → Prop) (k : Kernel) : List Operation → Prop
  | [] => True
  | o :: rest => Q k o ∧ (k.after o).Along Q rest

/-- Whether a condition holds along a run, by following it. -/
def decideAlong {Q : Kernel → Operation → Prop} [∀ k o, Decidable (Q k o)] (k : Kernel) :
    (operations : List Operation) → Decidable (k.Along Q operations)
  | [] => isTrue trivial
  | o :: rest =>
    have := (k.after o).decideAlong (Q := Q) rest
    inferInstanceAs (Decidable (Q k o ∧ (k.after o).Along Q rest))

instance {Q : Kernel → Operation → Prop} [∀ k o, Decidable (Q k o)] (k : Kernel) (operations : List Operation) :
    Decidable (k.Along Q operations) :=
  decideAlong k operations

/-- An amount for each operation of a run and the kernel it starts in, added up. -/
def sumAlong (amount : Kernel → Operation → Int) (k : Kernel) : List Operation → Int
  | [] => 0
  | o :: rest => amount k o + (k.after o).sumAlong amount rest

/-- The operation hands out no id, or not the last one. -/
def SparesLastId (k : Kernel) (o : Operation) : Prop := (k.after o).nextId ≠ k.nextId → k.nextId.toNat + 1 < 2 ^ 32

/-- **What every operation preserves, every run preserves**, under conditions on its operations and while ids are
new. -/
theorem run_preserves (hstep : ∀ k o, k.started.Nodup → k.SparesLastId o → Q k o → P k → P (k.after o))
    (operations : List Operation) (hn : k.started.Nodup)
    (hbound : k.nextId.toNat + k.handedOut operations < 2 ^ 32) (hQ : k.Along Q operations) (h : P k) :
    P (k.run operations) := by
  induction operations generalizing k with
  | nil => exact h
  | cons o rest ih =>
    unfold handedOut at hbound
    have hone : k.SparesLastId o := by
      intro hne
      rw [if_neg hne] at hbound
      omega
    refine ih (nodup_started_after o hn) ?_ hQ.2 (hstep k o hn hone hQ.1 h)
    obtain heq | heq := (moves_after k o hn).1
    · rw [if_pos heq] at hbound
      rw [heq]
      omega
    · have hne : (k.after o).nextId ≠ k.nextId := by
        rw [heq]
        simp
      rw [if_neg hne] at hbound
      rw [heq, UInt32.toNat_add, show (1 : UInt32).toNat = 1 from rfl, Nat.mod_eq_of_lt (hone hne)]
      omega

/-- What holds at every operation, given those before it, holds along a run. -/
theorem along_of_prefixes {operations : List Operation}
    (h : ∀ first o rest, operations = first ++ o :: rest → Q (k.run first) o) : k.Along Q operations := by
  induction operations generalizing k with
  | nil => trivial
  | cons o rest ih =>
    refine ⟨h [] o rest rfl, ih fun first o' rest' heq => h (o :: first) o' rest' ?_⟩
    rw [heq, List.cons_append]

theorem along_append {first rest : List Operation} :
    k.Along Q (first ++ rest) ↔ k.Along Q first ∧ (k.run first).Along Q rest := by
  induction first generalizing k with
  | nil => exact (and_iff_right trivial).symm
  | cons o first ih =>
    rw [List.cons_append, Along, Along, ih, and_assoc, run_cons]

/-- Ids handed out along a run are those of its beginning and those of the rest. -/
theorem handedOut_append (k : Kernel) (first rest : List Operation) :
    k.handedOut (first ++ rest) = k.handedOut first + (k.run first).handedOut rest := by
  induction first generalizing k with
  | nil => exact (Nat.zero_add _).symm
  | cons o first ih =>
    rw [List.cons_append, handedOut, handedOut, ih, run_cons]
    omega

theorem handedOut_le_append (k : Kernel) (first rest : List Operation) :
    k.handedOut first ≤ k.handedOut (first ++ rest) := by
  rw [handedOut_append]
  exact Nat.le_add_right ..

/-- The next id counts the ids handed out. -/
theorem toNat_nextId_run (operations : List Operation) (hn : k.started.Nodup)
    (hbound : k.nextId.toNat + k.handedOut operations < 2 ^ 32) :
    (k.run operations).nextId.toNat = k.nextId.toNat + k.handedOut operations := by
  induction operations generalizing k with
  | nil => rfl
  | cons o rest ih =>
    unfold handedOut at hbound ⊢
    have hstep : (k.after o).nextId.toNat = k.nextId.toNat + if (k.after o).nextId = k.nextId then 0 else 1 := by
      obtain heq | heq := (moves_after k o hn).1
      · rw [if_pos heq, heq, Nat.add_zero]
      · have hne : (k.after o).nextId ≠ k.nextId := by simp [heq]
        rw [if_neg hne] at hbound ⊢
        rw [heq, UInt32.toNat_add, show (1 : UInt32).toNat = 1 from rfl, Nat.mod_eq_of_lt (by omega)]
    rw [run_cons, ih (nodup_started_after o hn) (by omega), hstep]
    omega

/-- A new kernel has partitions and nothing else. -/
theorem new_cases (config : KernelConfig) (memory : Memory) : ∃ partitions journal,
    Kernel.new config memory = { config, memory, partitions, journal } ∧ ∀ e ∈ journal, e.isAlarm = false := by
  have hfold : ∀ (cs : List PartitionConfig) (k : Kernel), (∀ e ∈ k.journal, e.isAlarm = false) →
      ∃ partitions journal, cs.foldl addPartition k = { k with partitions, journal } ∧
        ∀ e ∈ journal, e.isAlarm = false := by
    intro cs
    induction cs with
    | nil => exact fun k hk => ⟨k.partitions, k.journal, rfl, hk⟩
    | cons c rest ih =>
      intro k hk
      obtain ⟨partitions, journal, heq, hcalm⟩ := ih (k.addPartition c) (by
        intro e he
        unfold addPartition at he
        rcases List.mem_append.mp he with he | he
        · rw [List.mem_reverse, List.mem_cons] at he
          rcases he with rfl | he
          · rfl
          · split at he
            · rw [List.mem_singleton.mp he]; rfl
            · cases he
        · exact hk e he)
      exact ⟨partitions, journal, heq, hcalm⟩
  exact hfold config.partitions { config, memory } fun e he => absurd he List.not_mem_nil

theorem nodup_started_new (config : KernelConfig) (memory : Memory) : (Kernel.new config memory).started.Nodup := by
  obtain ⟨partitions, journal, heq, -⟩ := new_cases config memory
  rw [heq]
  exact List.nodup_nil

/-- Nobody is started twice. -/
theorem nodup_started_run (config : KernelConfig) (memory : Memory) (operations : List Operation) :
    ((Kernel.new config memory).run operations).started.Nodup :=
  run_keeps (P := fun k => k.started.Nodup) (fun _ o hn _ => nodup_started_after o hn) operations
    (nodup_started_new config memory) (nodup_started_new config memory)

theorem nextId_new (config : KernelConfig) (memory : Memory) : (Kernel.new config memory).nextId.toNat = 1 := by
  obtain ⟨partitions, journal, heq, -⟩ := new_cases config memory
  rw [heq]
  rfl

theorem get?_new (config : KernelConfig) (memory : Memory) (x : ObjectId) :
    (Kernel.new config memory).objects.get? x = none := by
  obtain ⟨partitions, journal, heq, -⟩ := new_cases config memory
  rw [heq]
  unfold ObjectTable.get? ObjectTable.empty
  simp

theorem thread?_new (config : KernelConfig) (memory : Memory) (id : ThreadId) :
    (Kernel.new config memory).thread? id = none := by
  rw [thread?, ObjectTable.thread?_eq_bind, get?_new]
  rfl

end Kernel
end GuestKernel
