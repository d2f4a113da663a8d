/-
# Moves of the kernel

Every operation of the kernel is a sequence of a few kinds of moves. A move is one update of the scheduler or of one
object, and its constructor says what the kernel has checked when it makes it. What all operations preserve is then what
the moves preserve.

Between two moves of one operation a thread may be in transit: it waits, and stands in no queue, either because it has
just been parked and is about to be queued, or because it has left a queue and is about to be woken. A `Stage` is a
kernel with its threads in transit.

| move | transit |
| --- | --- |
| `park` | the running thread enters it |
| `enqueue`, `doze` | its thread leaves it |
| `change`, `erase`, `retire` | the threads that are let go enter it |
| `detach` | a thread whose wait ends by itself enters it |
| `wake` | its thread leaves it |

Moves carry labels. `Moves A` are sequences of moves whose labels satisfy `A`, so a sequence also records what an
operation does not do.

Source: specification, 5.
-/

import GuestKernel.Proofs.Changes

namespace GuestKernel

namespace Event

/-- The ready queue does not fit the threads. -/
def misqueued : Event → Bool
  | scheduleSkipped _ | unknownThreadReady _ | readyWithoutContext _ => true
  | _ => false

/-- A thread that does not exist or does not wait was to be woken. -/
def miswoken : Event → Bool
  | unknownThreadWoken _ | idleThreadWoken _ => true
  | _ => false

/-- An event that reports a broken kernel rather than a misled guest. -/
def isAlarm (e : Event) : Bool := e.misqueued || e.miswoken

/-- The thread that has entered the ready queue. -/
def queued? : Event → Option ThreadId
  | scheduled entry _ => some entry.thread
  | _ => none

/-- Whom the event reports to be woken, and with which result. -/
def wakes? : Event → Option (ThreadId × Int32)
  | woken id _ result => some (id, result)
  | _ => none

/-- An event that tells of neither alarms nor arrivals in the ready queue. -/
def isQuiet (e : Event) : Bool := !e.isAlarm && e.queued?.isNone

theorem isAlarm_of_isQuiet {e : Event} (h : e.isQuiet = true) : e.isAlarm = false := by
  simpa using (Bool.and_eq_true_iff.mp h).1

theorem queued?_of_isQuiet {e : Event} (h : e.isQuiet = true) : e.queued? = none := by
  simpa using (Bool.and_eq_true_iff.mp h).2

end Event

namespace Kernel

/-- The threads that have entered the ready queue, latest first. -/
def queueings (k : Kernel) : List ThreadId := k.journal.filterMap Event.queued?

/-- Who has been woken so far, and with which result, latest first. -/
def wakings (k : Kernel) : List (ThreadId × Int32) := k.journal.filterMap Event.wakes?

/-- The kernels have the same objects and the same scheduler, and no alarm is new. -/
structure SameObjects (k k' : Kernel) : Prop where
  config : k'.config = k.config
  objects : k'.objects = k.objects
  started : k'.started = k.started
  ready : k'.ready = k.ready
  current : k'.current = k.current
  delivering : k'.delivering = k.delivering
  calm : ∀ e ∈ k'.journal, e ∈ k.journal ∨ e.isAlarm = false
  queueings : k'.queueings = k.queueings

/-- At most guest memory, the contents of registers and the journal differ, and no alarm is new. -/
structure Reloads (k k' : Kernel) : Prop extends SameObjects k k' where
  partitions : k'.partitions = k.partitions
  clock : k'.clock = k.clock
  contextIds : k'.contexts.nextId = k.contexts.nextId
  contexts : ∀ c, (k'.contexts.get? c).isSome = (k.contexts.get? c).isSome

/-- At most guest memory, result registers and the journal differ, and no alarm is new. -/
structure Quiet (k k' : Kernel) : Prop extends Reloads k k' where
  registers : ∀ c i, i ≠ Register.v0.val → k'.contexts.register c i = k.contexts.register c i

variable {k k₁ k₂ k₃ : Kernel} {es : List Event}

theorem SameObjects.trans (h : SameObjects k₁ k₂) (h' : SameObjects k₂ k₃) : SameObjects k₁ k₃ where
  config := h'.config.trans h.config
  objects := h'.objects.trans h.objects
  started := h'.started.trans h.started
  ready := h'.ready.trans h.ready
  current := h'.current.trans h.current
  delivering := h'.delivering.trans h.delivering
  calm e he := by
    rcases h'.calm e he with he | he
    · exact h.calm e he
    · exact Or.inr he
  queueings := h'.queueings.trans h.queueings

theorem SameObjects.thread? (h : SameObjects k₁ k₂) (id : ThreadId) : k₂.thread? id = k₁.thread? id := by
  rw [Kernel.thread?, h.objects, Kernel.thread?]

theorem SameObjects.nextId (h : SameObjects k₁ k₂) : k₂.nextId = k₁.nextId := by
  rw [Kernel.nextId, h.objects, Kernel.nextId]

theorem Quiet.refl (k : Kernel) : Quiet k k where
  config := rfl
  objects := rfl
  started := rfl
  ready := rfl
  current := rfl
  delivering := rfl
  calm _ he := Or.inl he
  queueings := rfl
  partitions := rfl
  clock := rfl
  contextIds := rfl
  contexts _ := rfl
  registers _ _ _ := rfl

theorem Reloads.trans (h : Reloads k₁ k₂) (h' : Reloads k₂ k₃) : Reloads k₁ k₃ where
  toSameObjects := h.toSameObjects.trans h'.toSameObjects
  partitions := h'.partitions.trans h.partitions
  clock := h'.clock.trans h.clock
  contextIds := h'.contextIds.trans h.contextIds
  contexts c := (h'.contexts c).trans (h.contexts c)

theorem Quiet.trans (h : Quiet k₁ k₂) (h' : Quiet k₂ k₃) : Quiet k₁ k₃ where
  toReloads := h.toReloads.trans h'.toReloads
  registers c i hi := (h'.registers c i hi).trans (h.registers c i hi)

/-- Noting events other than alarms raises none. -/
theorem calm_noteAll (k : Kernel) (h : ∀ e ∈ es, e.isAlarm = false) :
    ∀ e ∈ (k.noteAll es).journal, e ∈ k.journal ∨ e.isAlarm = false := by
  intro e he
  rcases List.mem_append.mp he with he | he
  · exact Or.inr (h e (List.mem_reverse.mp he))
  · exact Or.inl he

theorem queueings_noteAll (k : Kernel) (es : List Event) :
    (k.noteAll es).queueings = (es.filterMap Event.queued?).reverse ++ k.queueings := by
  show (es.reverse ++ k.journal).filterMap Event.queued? = _
  rw [List.filterMap_append, List.filterMap_reverse]
  rfl

/-- Noting quiet events is quiet. -/
theorem Quiet.noteAll (k : Kernel) (h : ∀ e ∈ es, e.isQuiet = true) : Quiet k (k.noteAll es) :=
  { Quiet.refl k with
    calm := calm_noteAll k fun e he => Event.isAlarm_of_isQuiet (h e he)
    queueings := by
      rw [queueings_noteAll, List.filterMap_eq_nil_iff.mpr fun e he => Event.queued?_of_isQuiet (h e he)]
      rfl }

theorem Quiet.note (k : Kernel) {e : Event} (h : e.isQuiet = true) : Quiet k (k.note e) := by
  show Quiet k (k.noteAll [e])
  exact noteAll k (by simpa using h)

/-- Contexts are no part of the objects. -/
theorem SameObjects.contexts (k : Kernel) (c : Contexts) : SameObjects k { k with contexts := c } :=
  { (Quiet.refl k).toSameObjects with }

/-- Guest memory is no part of the objects. -/
theorem Quiet.memory (k : Kernel) (m : Memory) : Quiet k { k with memory := m } :=
  { Quiet.refl k with }

theorem isQuiet_setRegisterEvents (c : Contexts) (id : ContextId) (index : Nat) :
    ∀ e ∈ c.setRegisterEvents id index, e.isQuiet = true := by
  intro e he
  unfold Contexts.setRegisterEvents at he
  split at he
  · rw [List.mem_singleton.mp he]; rfl
  · split at he
    · simp at he
    · rw [List.mem_singleton.mp he]; rfl

theorem isSome_get?_setRegister (c : Contexts) (id : ContextId) (index : Nat) (value : UInt32)
    (x : ContextId) : ((c.setRegister id index value).get? x).isSome = (c.get? x).isSome := by
  unfold Contexts.setRegister
  split
  · next context hc =>
    split
    · simp only [Contexts.get?, Std.ExtTreeMap.getElem?_insert]
      split
      · next hx =>
        have hid : id = x := Std.LawfulEqCmp.eq_of_compare hx
        rw [← hid]
        simp only [Contexts.get?] at hc
        rw [hc]
        rfl
      · rfl
    · rfl
  · rfl

theorem nextId_setRegister (c : Contexts) (id : ContextId) (index : Nat) (value : UInt32) :
    (c.setRegister id index value).nextId = c.nextId := by
  unfold Contexts.setRegister
  split
  · split <;> rfl
  · rfl

/-- Writing a register leaves the other registers, of all contexts, as they are. -/
theorem register_setRegister_other (c : Contexts) (id : ContextId) {index : Nat} (value : UInt32) (x : ContextId)
    {i : Nat} (hi : i ≠ index) : (c.setRegister id index value).register x i = c.register x i := by
  unfold Contexts.setRegister
  split
  · next context hc =>
    split
    · unfold Contexts.register Contexts.get?
      rw [Std.ExtTreeMap.getElem?_insert]
      by_cases hx : compare id x = .eq
      · unfold Contexts.get? at hc
        rw [if_pos hx, ← Std.LawfulEqCmp.eq_of_compare hx, hc]
        dsimp only
        rw [Vector.getElem?_set, if_neg (Ne.symm hi)]
      · rw [if_neg hx]
    · rfl
  · rfl

/-- Writing a register reloads it. -/
theorem Reloads.setRegister (k : Kernel) (context : ContextId) (index : Nat) (value : UInt32) :
    Reloads k (k.setRegister context index value) :=
  { (Quiet.noteAll k (isQuiet_setRegisterEvents k.contexts context index)).toReloads with
    contextIds := nextId_setRegister ..
    contexts := isSome_get?_setRegister _ _ _ _ }

theorem Reloads.setRegisters (k : Kernel) (context : ContextId) (values : Registers) :
    Reloads k (k.setRegisters context values) := by
  unfold Kernel.setRegisters
  generalize List.finRange 32 = indices
  induction indices generalizing k with
  | nil => exact (Quiet.refl k).toReloads
  | cons i rest ih => exact (Reloads.setRegister k context i (values.get i)).trans (ih _)

/-- Writing a result is quiet. -/
theorem Quiet.setResult (k : Kernel) (context : ContextId) (value : UInt32) :
    Quiet k (k.setRegister context Register.v0 value) where
  toReloads := Reloads.setRegister k context Register.v0 value
  registers c _ hi := register_setRegister_other k.contexts context value c hi

/-- A refused access to guest memory leaves the objects alone. -/
theorem Quiet.fault {α : Type} (k : Kernel) (f : Fault) : Quiet k (k.fault f : Reply α).kernel :=
  Quiet.note k rfl

theorem Quiet.withMemory (k : Kernel) (m : Except Fault Memory) : Quiet k (k.withMemory m).kernel := by
  cases m with
  | ok m => exact Quiet.memory k m
  | error f => exact Quiet.fault k f

/-- At most the journal differs. -/
def Noted (k k' : Kernel) : Prop := k' = { k with journal := k'.journal }

theorem Noted.refl (k : Kernel) : Noted k k := rfl

theorem Noted.noteAll (k : Kernel) (es : List Event) : Noted k (k.noteAll es) := rfl

theorem Noted.note (k : Kernel) (e : Event) : Noted k (k.note e) := rfl

theorem Noted.partitions {k' : Kernel} (h : Noted k k') : k'.partitions = k.partitions := by rw [h]

end Kernel

/-- What a move does, and to whom. -/
inductive Label where
  | quiet
  | load
  | resource
  | reserve
  | create (o : Object)
  | erase (o : Object)
  | change (o o' : Object)
  | enqueue (o o' : Object)
  | edit (t t' : Thread)
  | launch (id : ThreadId)
  | park (id : ThreadId) (w : Wait)
  | doze (id : ThreadId) (w : Wait)
  | detach (id : ThreadId) (w : Wait)
  | wake (id : ThreadId) (result : Int32)
  | retire (id : ThreadId) (exitCode : Int32)
  | strip (id : ThreadId)
  | bury (id : ThreadId)
  | reprioritise (id : ThreadId) (priority : UInt32)
  | hold (id : ThreadId)
  | unhold (id : ThreadId)
  | preempt
  | run
  | interrupt (d : Delivery)
  | endDelivery (d : Delivery)

/-- The label of a move that makes no object, touches none but threads and callbacks, and leaves the blocks of
partitions where they are, the callback that runs at it and the registers of the guest alone. -/
def Label.IsRoutine : Label → Prop
  | load | create _ | reserve | strip _ | bury _ | endDelivery _ => False
  | erase o | change o _ | enqueue o _ => o.kind = .thread ∨ o.kind = .callback
  | _ => True

/-- The label of a move by which a thread starts, ends, begins to wait, gives up waiting, is put on hold or goes on, or by
which the processor changes hands. -/
def Label.Schedules : Label → Prop
  | launch _ | park _ _ | detach _ _ | retire _ _ | hold _ | unhold _ | preempt | run | interrupt _ => True
  | _ => False

/-- The label of a move by which the processor changes hands. -/
def Label.Dispatches : Label → Prop
  | preempt | run | interrupt _ => True
  | _ => False

/-- The label of a move that is the scheduler's own work, or ends the callback that runs. -/
def Label.Rearranges : Label → Prop
  | reprioritise _ _ | hold _ | unhold _ | preempt | run | interrupt _ | endDelivery _ => True
  | _ => False

/-- The label of a move after which at most threads differ of what is registered, and not in the blocks they hold. -/
def Label.OnlyThreads : Label → Prop
  | quiet | load | resource | edit _ _ | park _ _ | doze _ _ | wake _ _ => True
  | l => l.Rearranges

/-- The label of a move that gives the thread of an id another priority. -/
def Label.Ranks (id : ThreadId) : Label → Prop
  | reprioritise x _ => x = id
  | _ => False

/-- The label of a move that changes nothing but the saved wakeups of the thread of an id, or has it sleep for want of
one. -/
def Label.Counts (id : ThreadId) : Label → Prop
  | edit t t' => t.id = id ∧ t'.callbacks = t.callbacks ∧ t'.checksCallbacks = t.checksCallbacks
  | doze x w => x = id ∧ w.kind = .sleep
  | _ => False

/-- The label of a move by which a thread's callbacks or its request to run them change, or a callback goes. -/
def Label.Attaches : Label → Prop
  | edit t t' => t'.wakeups = t.wakeups
  | erase o => o.kind = .callback
  | _ => False

/-- The label of a notification of the callback of an id. -/
def Label.Notifies (id : ObjectId) (argument : UInt32) : Label → Prop
  | change (.callback c) (.callback c') => c.id = id ∧ c' = c.notify argument
  | _ => False

/-- The label of a move that takes the notifications of a callback. -/
def Label.Takes : Label → Prop
  | change (.callback c) (.callback c') => c' = c.taken
  | _ => False

/-- The label of a move that changes what belongs to one thread: its priority, its wakeups and its sleep, its callbacks or
its request to run them. -/
def Label.Revises : Label → Prop
  | edit _ _ | reprioritise _ _ => True
  | doze _ w => w.kind = .sleep
  | erase o | change o _ => o.kind = .callback
  | _ => False

theorem Label.Ranks.revises {l : Label} {id : ThreadId} (h : l.Ranks id) : l.Revises := by
  cases l <;> trivial

theorem Label.Counts.revises {l : Label} {id : ThreadId} (h : l.Counts id) : l.Revises := by
  cases l with
  | doze => exact h.2
  | _ => trivial

theorem Label.Attaches.revises {l : Label} (h : l.Attaches) : l.Revises := by
  cases l <;> trivial

theorem Label.Notifies.revises {l : Label} {id : ObjectId} {argument : UInt32} (h : l.Notifies id argument) :
    l.Revises := by
  cases l with
  | change o => cases o <;> trivial
  | _ => trivial

theorem Label.Takes.revises {l : Label} (h : l.Takes) : l.Revises := by
  cases l with
  | change o => cases o <;> trivial
  | _ => trivial

theorem Label.Revises.isRoutine {l : Label} (h : l.Revises) : l.IsRoutine := by
  cases l with
  | erase | change => exact Or.inr h
  | _ => trivial

theorem Label.Revises.not_schedules {l : Label} (h : l.Revises) : ¬ l.Schedules := by
  cases l <;> first | exact id | exact absurd h id

/-- The label of a routine move that schedules nobody and revises nothing. -/
def Label.IsPlain : Label → Prop
  | quiet | resource | wake _ _ => True
  | doze _ w => w.kind = .delay
  | enqueue o _ => o.kind = .thread
  | _ => False

theorem Label.IsPlain.isRoutine {l : Label} (h : l.IsPlain) : l.IsRoutine := by
  cases l with
  | enqueue => exact Or.inl h
  | _ => trivial

theorem Label.IsPlain.not_schedules {l : Label} (h : l.IsPlain) : ¬ l.Schedules := by
  cases l <;> first | exact id | exact absurd h id

theorem Label.IsPlain.not_revises {l : Label} (h : l.IsPlain) : ¬ l.Revises := by
  cases l with
  | doze => exact fun hr => by cases h.symm.trans hr
  | _ => first | exact id | exact absurd h id

/-- The label of a move by which a parked thread enters a queue, or goes to sleep in none. -/
def Label.Settles : Label → Prop
  | enqueue _ _ | doze _ _ => True
  | _ => False

/-- The label of a move by which blocks of a partition change hands, or go with the thread that held them. -/
def Label.Reserves : Label → Prop
  | reserve | strip _ | bury _ => True
  | _ => False

/-- The label of a move by which a dead thread loses what it held, or its place. -/
def Label.Buries : Label → Prop
  | strip _ | bury _ => True
  | _ => False

/-- The label of the end of the callback that runs. -/
def Label.EndsDelivery : Label → Prop
  | endDelivery _ => True
  | _ => False

/-- The label of a move that fills registers of the guest. -/
def Label.Loads : Label → Prop
  | load => True
  | _ => False

/-- The label of a change of the object of some kind under an id, or of an entry into its queues. -/
def Label.Changes (kind : ObjectKind) (id : ObjectId) : Label → Prop
  | change o _ | enqueue o _ => o.kind = kind ∧ o.id = id
  | _ => False

/-- The label of the end of the object of some kind under an id. -/
def Label.Erases (kind : ObjectKind) (id : ObjectId) : Label → Prop
  | erase o => o.kind = kind ∧ o.id = id
  | _ => False

theorem Label.Reserves.not_schedules {l : Label} (h : l.Reserves) : ¬ l.Schedules := by
  cases l <;> first | exact id | exact absurd h id

theorem Label.Reserves.not_revises {l : Label} (h : l.Reserves) : ¬ l.Revises := by
  cases l <;> first | exact id | exact absurd h id

theorem Label.EndsDelivery.not_schedules {l : Label} (h : l.EndsDelivery) : ¬ l.Schedules := by
  cases l <;> first | exact id | exact absurd h id

theorem Label.EndsDelivery.not_revises {l : Label} (h : l.EndsDelivery) : ¬ l.Revises := by
  cases l <;> first | exact id | exact absurd h id

theorem Label.Loads.not_schedules {l : Label} (h : l.Loads) : ¬ l.Schedules := by
  cases l <;> first | exact id | exact absurd h id

theorem Label.Loads.not_revises {l : Label} (h : l.Loads) : ¬ l.Revises := by
  cases l <;> first | exact id | exact absurd h id

theorem Label.Changes.not_schedules {l : Label} {kind : ObjectKind} {id : ObjectId} (h : l.Changes kind id) :
    ¬ l.Schedules := by
  cases l <;> first | exact fun hs => hs | exact absurd h fun hc => hc

theorem Label.Changes.not_revises {l : Label} {kind : ObjectKind} {id : ObjectId} (h : l.Changes kind id)
    (hk : kind ≠ .callback) : ¬ l.Revises := by
  cases l with
  | change => exact fun hr => hk (h.1 ▸ hr)
  | enqueue => exact fun hr => hr
  | _ => exact absurd h fun hc => hc

theorem Label.Erases.not_schedules {l : Label} {kind : ObjectKind} {id : ObjectId} (h : l.Erases kind id) :
    ¬ l.Schedules := by
  cases l <;> first | exact fun hs => hs | exact absurd h fun hc => hc

theorem Label.Erases.not_revises {l : Label} {kind : ObjectKind} {id : ObjectId} (h : l.Erases kind id)
    (hk : kind ≠ .callback) : ¬ l.Revises := by
  cases l with
  | erase => exact fun hr => hk (h.1 ▸ hr)
  | _ => exact absurd h fun hc => hc

/-- A kernel in the middle of an operation, and the threads in transit. -/
structure Stage where
  kernel : Kernel
  transit : List ThreadId

/-- One update of the scheduler or of an object. -/
inductive Move : Label → Stage → Stage → Prop where
  | quiet {k k' : Kernel} {L : List ThreadId} (h : k.Quiet k') : Move .quiet ⟨k, L⟩ ⟨k', L⟩
  /-- The guest writes its registers, or gets back those that a callback has interrupted. -/
  | load {k k' : Kernel} {L : List ThreadId} (h : k.Reloads k') : Move .load ⟨k, L⟩ ⟨k', L⟩
  /-- The clock changes. -/
  | resource {k k' : Kernel} {L : List ThreadId} (h : k.SameObjects k') (hp : k'.partitions = k.partitions)
      (hx : k'.contexts = k.contexts) : Move .resource ⟨k, L⟩ ⟨k', L⟩
  /-- Partitions change. -/
  | reserve {k k' : Kernel} {L : List ThreadId} (h : k.SameObjects k') (hx : k'.contexts = k.contexts) :
      Move .reserve ⟨k, L⟩ ⟨k', L⟩
  | create {k : Kernel} {L : List ThreadId} {o : Object} (hid : o.id = k.nextId) (hnew : o.IsNew) :
      Move (.create o) ⟨k, L⟩ ⟨{ k with objects := k.objects.skipId.put o }, L⟩
  /-- An object other than a thread is unregistered; those that wait on it are let go. -/
  | erase {k : Kernel} {o : Object} (ho : k.objects.get? o.id = some o) (hkind : o.kind ≠ .thread) :
      Move (.erase o) ⟨k, []⟩ ⟨{ k with objects := k.objects.erase o.id }, o.waiting⟩
  | change {k : Kernel} {o o' : Object} {off : List ThreadId} (ho : k.objects.get? o.id = some o)
      (h : o.Change o' off) : Move (.change o o') ⟨k, []⟩ ⟨k.put o', off⟩
  | enqueue {k : Kernel} {o o' : Object} {t : Thread} {w : Wait} (ho : k.objects.get? o.id = some o)
      (ht : k.thread? t.id = some t) (hw : t.wait = some w) (h : o.Enqueues t.id t.priority w o')
      (hd : k.delivering = none) : Move (.enqueue o o') ⟨k, [t.id]⟩ ⟨k.put o', []⟩
  /-- The thread's wakeups, callbacks or request to run them change. -/
  | edit {k : Kernel} {L : List ThreadId} {t t' : Thread} (ht : k.thread? t.id = some t)
      (h : t.SameLife t') : Move (.edit t t') ⟨k, L⟩ ⟨k.putThread t', L⟩
  /-- A stopped thread gets a new context. -/
  | launch {k : Kernel} {L : List ThreadId} {t : Thread} {registers : Registers}
      (ht : k.thread? t.id = some t) (hs : t.status = .onlyStopped) :
      Move (.launch t.id) ⟨k, L⟩ ⟨(k.allocateContext t.entry registers).launch t k.contexts.freshId, L⟩
  | park {k : Kernel} {t : Thread} {w : Wait} (hd : k.delivering = none) (hc : k.current = some t.id)
      (ht : k.thread? t.id = some t) : Move (.park t.id w) ⟨k, []⟩ ⟨k.park t w, [t.id]⟩
  /-- A sleep or a delay has no queue, and a sleep has no end of its own. -/
  | doze {k : Kernel} {t : Thread} {w : Wait} (ht : k.thread? t.id = some t) (hw : t.wait = some w)
      (hkind : w.kind = .sleep ∨ w.kind = .delay) (hd : k.delivering = none)
      (hrest : w.kind = .sleep → w.timeout = 0) :
      Move (.doze t.id w) ⟨k, [t.id]⟩ ⟨k, []⟩
  | detach {k : Kernel} {t : Thread} {w : Wait} (ht : k.thread? t.id = some t) (hw : t.wait = some w) :
      Move (.detach t.id w) ⟨k, []⟩ ⟨k.detach t.id w, [t.id]⟩
  | wake {k : Kernel} {L : List ThreadId} {id : ThreadId} {result : Int32} :
      Move (.wake id result) ⟨k, id :: L⟩ ⟨k.wake id result, L⟩
  /-- The thread dies; those that joined it are let go. -/
  | retire {k : Kernel} {t : Thread} {exitCode : Int32} (ht : k.thread? t.id = some t)
      (hs : t.status.dead = false) :
      Move (.retire t.id exitCode) ⟨k, []⟩ ⟨k.retire t exitCode, t.exitWaiters⟩
  /-- A dead thread loses what it held; its context goes too, or is left to nobody. -/
  | strip {k : Kernel} {L : List ThreadId} {t : Thread} {contexts : Contexts} (ht : k.thread? t.id = some t)
      (hs : t.status.dead = true)
      (hx : contexts = k.contexts ∨ ∃ c, t.context = some c ∧ contexts = k.contexts.release c) :
      Move (.strip t.id) ⟨k, L⟩ ⟨{ k.putThread t.strip with contexts }, L⟩
  /-- A dead thread is unregistered. -/
  | bury {k : Kernel} {L : List ThreadId} {t : Thread} (ht : k.thread? t.id = some t)
      (hs : t.status.dead = true) :
      Move (.bury t.id) ⟨k, L⟩
        ⟨{ k with objects := k.objects.erase t.id, started := k.started.filter (· != t.id) }, L⟩
  | reprioritise {k : Kernel} {L : List ThreadId} {t : Thread} {priority : UInt32}
      (ht : k.thread? t.id = some t) (hs : t.status.dead = false)
      (hp : minPriority ≤ priority ∧ priority ≤ maxPriority) :
      Move (.reprioritise t.id priority) ⟨k, L⟩ ⟨k.reprioritise t priority, L⟩
  | hold {k : Kernel} {L : List ThreadId} {t : Thread} (ht : k.thread? t.id = some t)
      (hc : k.current ≠ some t.id) (hd : t.isDormant = false) (hs : t.status.suspended = false) :
      Move (.hold t.id) ⟨k, L⟩ ⟨k.hold t, L⟩
  | unhold {k : Kernel} {L : List ThreadId} {t : Thread} (ht : k.thread? t.id = some t)
      (hs : t.status.suspended = true) : Move (.unhold t.id) ⟨k, L⟩ ⟨k.unhold t, L⟩
  | preempt {k : Kernel} {L : List ThreadId} (hd : k.delivering = none) : Move .preempt ⟨k, L⟩ ⟨k.preempt, L⟩
  | run {k : Kernel} {L : List ThreadId} (hd : k.delivering = none) (hc : k.current = none) :
      Move .run ⟨k, L⟩ ⟨(k.runFirst k.ready.entries).2, L⟩
  | interrupt {k : Kernel} {L : List ThreadId} {t : Thread} {d : Delivery} (hd : k.delivering = none)
      (hc : k.current = none) (ht : k.thread? t.id = some t) (ha : t.admitsCallbacks = true)
      (hx : t.context.isSome = true) (hdt : d.thread = t.id) (hdw : d.fromWait = t.status.waiting) :
      Move (.interrupt d) ⟨k, L⟩ ⟨k.interrupt t d, L⟩
  | endDelivery {k : Kernel} {L : List ThreadId} {d : Delivery} {t : Thread} (hd : k.delivering = some d)
      (ht : k.thread? d.thread = some t) : Move (.endDelivery d) ⟨k, L⟩ ⟨k.endDelivery d, L⟩
  /-- The thread of the callback is gone. -/
  | dropDelivery {k : Kernel} {L : List ThreadId} {d : Delivery} (hd : k.delivering = some d)
      (ht : k.thread? d.thread = none) :
      Move (.endDelivery d) ⟨k, L⟩ ⟨{ k with delivering := none }, L⟩

/-- What the move makes, if it makes an object, has an id that is not taken. -/
def Label.Fresh (l : Label) (k : Kernel) : Prop := ∀ o, l = .create o → k.objects.get? o.id = none

/-- Sequences of moves whose labels satisfy `A`. -/
inductive Moves (A : Label → Prop) : Stage → Stage → Prop where
  | refl (s : Stage) : Moves A s s
  | step {l : Label} {s₁ s₂ s₃ : Stage} (hl : A l) (h : Move l s₁ s₂) (hs : Moves A s₂ s₃) : Moves A s₁ s₃

namespace Moves

variable {A B : Label → Prop} {s₁ s₂ s₃ : Stage} {k k' : Kernel} {L : List ThreadId} {l : Label}

theorem trans (h : Moves A s₁ s₂) (h' : Moves A s₂ s₃) : Moves A s₁ s₃ := by
  induction h with
  | refl => exact h'
  | step hl hm _ ih => exact .step hl hm (ih h')

theorem single (hl : A l) (h : Move l s₁ s₂) : Moves A s₁ s₂ := .step hl h (.refl _)

theorem snoc (h : Moves A s₁ s₂) (hl : A l) (hm : Move l s₂ s₃) : Moves A s₁ s₃ :=
  h.trans (single hl hm)

theorem mono (hAB : ∀ l, A l → B l) (h : Moves A s₁ s₂) : Moves B s₁ s₂ := by
  induction h with
  | refl => exact .refl _
  | step hl hm _ ih => exact .step (hAB _ hl) hm ih

/-- **What every move preserves, every sequence of moves preserves.** -/
theorem preserves {P : Stage → Prop} (h : Moves A s₁ s₂)
    (hP : ∀ l s s', A l → Move l s s' → P s → P s') (h₁ : P s₁) : P s₂ := by
  induction h with
  | refl => exact h₁
  | step hl hm _ ih => exact ih (hP _ _ _ hl hm h₁)

/-- A routine move that schedules nobody and revises nothing is allowed everywhere. -/
theorem routine (hA : ∀ l, l.IsPlain → A l) (h : Move l s₁ s₂) (hl : l.IsPlain) : Moves A s₁ s₂ :=
  single (hA l hl) h

/-- The object that a call names changes. -/
theorem change {o o' : Object} {off : List ThreadId} (hid : ∀ l, l.Changes o.kind o.id → A l)
    (ho : k.objects.get? o.id = some o) (h : o.Change o' off) : Moves A ⟨k, []⟩ ⟨k.put o', off⟩ :=
  single (hid (.change o o') ⟨rfl, rfl⟩) (.change ho h)

theorem quiet (hA : ∀ l, l.IsPlain → A l) (h : k.Quiet k') : Moves A ⟨k, L⟩ ⟨k', L⟩ :=
  routine hA (.quiet h) trivial

theorem note (hA : ∀ l, l.IsPlain → A l) {e : Event} (he : e.isQuiet = true) :
    Moves A ⟨k, L⟩ ⟨k.note e, L⟩ :=
  quiet hA (Kernel.Quiet.note k he)

theorem resource (hA : ∀ l, l.IsPlain → A l) (h : k.SameObjects k') (hp : k'.partitions = k.partitions)
    (hx : k'.contexts = k.contexts) : Moves A ⟨k, L⟩ ⟨k', L⟩ :=
  routine hA (.resource h hp hx) trivial

theorem reserve (hR : A .reserve) (h : k.SameObjects k') (hx : k'.contexts = k.contexts) :
    Moves A ⟨k, L⟩ ⟨k', L⟩ :=
  single hR (.reserve h hx)

end Moves
end GuestKernel
