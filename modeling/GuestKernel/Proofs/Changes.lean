/-
# How a kernel object may change

Apart from a thread's own life, an object changes in three ways only.

| way | relation |
| --- | --- |
| it is made | `Object.IsNew` |
| its value changes, and waiters may leave its queues to be woken | `Object.Change` |
| a thread that has just been parked enters a queue | `Object.Enqueues` |

A fourth way, in which a thread leaves a queue without being served, is the function `Object.removeWaiter`.

The relations list the calls that make these changes together with what the calls have checked by then, so that an
invariant of objects has to be examined once per entry and never again for the calls.

Source: specification, 3.
-/

import GuestKernel.Proofs.Lookup

namespace GuestKernel

/-- The thread differs at most in its saved wakeups, its callbacks and its request to run them. -/
def Thread.SameLife (t t' : Thread) : Prop :=
  t' = { t with wakeups := t'.wakeups, callbacks := t'.callbacks, checksCallbacks := t'.checksCallbacks }

/-- Units are taken exactly when nobody is queued and enough are there. -/
theorem Semaphore.acquire?_eq_some {s s' : Semaphore} {need : Int32} :
    s.acquire? need = some s' ↔
      s.waiters = [] ∧ need ≤ s.count ∧ s' = { s with count := s.count - need } := by
  unfold acquire?
  split
  · next h =>
    rw [List.isEmpty_iff] at h
    simp only [Option.some.injEq, h.1, h.2, true_and, eq_comm]
  · next h =>
    rw [List.isEmpty_iff] at h
    simp only [reduceCtorEq, false_iff]
    exact fun hs => h ⟨hs.1, hs.2.1⟩

namespace Mutex

variable {m m' : Mutex} {thread : ThreadId} {count : Int32}

/-- A lock that succeeds makes the thread the owner, or adds to the holds it has. -/
theorem tryLock_acquired (h : m.tryLock thread count = .ok (.acquired m')) :
    (m.owner = none ∧ m' = { m with owner := some thread, lockCount := count }) ∨
      (m.owner = some thread ∧ m.isRecursive = true ∧ m.lockCount.toInt + count.toInt ≤ maxLockCount ∧
        m' = { m with lockCount := m.lockCount + count }) := by
  unfold tryLock at h
  split at h
  · next ho =>
    cases h
    exact Or.inl ⟨ho, rfl⟩
  · next owner ho =>
    split at h
    · next hown =>
      split at h
      · cases h
      · next hrec =>
        split at h
        · cases h
        · next hmax =>
          cases h
          exact Or.inr ⟨hown ▸ ho, by simpa using hrec, by omega, rfl⟩
    · cases h

/-- A lock that is refused for now finds another owner. -/
theorem tryLock_contended (h : m.tryLock thread count = .ok .contended) :
    ∃ owner, m.owner = some owner ∧ owner ≠ thread := by
  unfold tryLock at h
  split at h
  · cases h
  · next owner ho =>
    split at h
    · split at h
      · cases h
      · split at h <;> cases h
    · next hown => exact ⟨owner, ho, hown⟩

/-- What an unlock by the owner leaves: fewer holds, a free mutex, or one that the first waiter owns. -/
theorem unlock_ok {next : Option ThreadId} (h : m.unlock thread count = .ok (m', next)) :
    m.owner = some thread ∧ count ≤ m.lockCount ∧
      ((0 < m.lockCount - count ∧ next = none ∧ m' = { m with lockCount := m.lockCount - count }) ∨
        (m.lockCount - count ≤ 0 ∧ m.waiters = [] ∧ next = none ∧
          m' = { m with owner := none, lockCount := m.lockCount - count }) ∨
        (m.lockCount - count ≤ 0 ∧ ∃ w rest, m.waiters = w :: rest ∧ next = some w.thread ∧
          m' = { m with owner := some w.thread, lockCount := w.request, waiters := rest })) := by
  simp only [unlock] at h
  by_cases hown : m.owner = some thread
  · rw [if_neg (not_not_intro hown)] at h
    by_cases hcount : m.lockCount < count
    · rw [if_pos hcount] at h
      cases h
    · rw [if_neg hcount] at h
      refine ⟨hown, Int32.not_lt.mp hcount, ?_⟩
      by_cases hleft : 0 < m.lockCount - count
      · rw [if_pos hleft] at h
        cases h
        exact Or.inl ⟨hleft, rfl, rfl⟩
      · rw [if_neg hleft] at h
        have hleft' : m.lockCount - count ≤ 0 := Int32.not_lt.mp hleft
        cases hq : m.waiters with
        | nil =>
          rw [hq] at h
          cases h
          exact Or.inr (Or.inl ⟨hleft', rfl, rfl, rfl⟩)
        | cons w rest =>
          rw [hq] at h
          cases h
          exact Or.inr (Or.inr ⟨hleft', w, rest, rfl, rfl, rfl⟩)
  · rw [if_pos hown] at h
    cases h

end Mutex

namespace MessagePipe

/-- Neither the receiver nor the sender at the front can be served. -/
structure Idle (p : MessagePipe) : Prop where
  receiver : ∀ w ∈ p.receivers.head?, p.receiveAmount? w.request = none
  sender : ∀ w ∈ p.senders.head?, p.sendAmount? w.request = none

/-- The pipe has served requests from the fronts of its queues; `off` are the threads that were queued with them. -/
structure Serves (p p' : MessagePipe) (off : List ThreadId) : Prop where
  frame : p' = { p with buffer := p'.buffer, senders := p'.senders, receivers := p'.receivers }
  served : ∃ sent received : WaitQueue PipeRequest, p.senders = sent ++ p'.senders ∧
    p.receivers = received ++ p'.receivers ∧ off.Perm (sent.threads ++ received.threads)
  fits : p.buffer.length ≤ p.capacity.toNat → p'.buffer.length ≤ p'.capacity.toNat

/-- The pipe has served requests until none could be served. -/
structure SettlesTo (p p' : MessagePipe) (off : List ThreadId) : Prop extends Serves p p' off where
  idle : p'.Idle

end MessagePipe

namespace Object

/-- What holds of an object as it is registered. -/
def IsNew : Object → Prop
  | thread t => t.status = .onlyStopped ∧ t.wait = none ∧ t.exitWaiters = [] ∧ t.context = none ∧
      t.callbacks = [] ∧ t.wakeups = 0 ∧ t.checksCallbacks = false ∧ minPriority ≤ t.priority ∧
      t.priority ≤ maxPriority
  | callback c => c.notifyCount = 0
  | semaphore s => s.waiters = [] ∧ 0 ≤ s.count ∧ s.count ≤ s.maxCount ∧ s.initialCount = s.count
  | eventFlag f => f.waiters = []
  | mutex m => m.waiters = [] ∧ 0 ≤ m.lockCount ∧ (m.owner = none ↔ m.lockCount = 0) ∧
      (1 < m.lockCount → m.isRecursive = true)
  | messagePipe p => p.buffer = [] ∧ p.senders = [] ∧ p.receivers = [] ∧ 0 < p.capacity
  | partitionMemory _ => True

/-- A new value for an object, and the threads that leave its queues to be woken. -/
inductive Change : Object → Object → List ThreadId → Prop where
  | notify (c : Callback) (argument : UInt32) : Change (callback c) (callback (c.notify argument)) []
  | take (c : Callback) : Change (callback c) (callback c.taken) []
  | acquire {s s' : Semaphore} {need : Int32} (hneed : 0 < need) (h : s.acquire? need = some s') :
      Change (semaphore s) (semaphore s') []
  | release {s : Semaphore} {amount : Int32} (hamount : 0 ≤ amount) (h : s.overflows amount = false) :
      Change (semaphore s) (semaphore (s.release amount).1) (s.release amount).2
  | resetSemaphore {s : Semaphore} {count : Int32} (h : count ≤ s.maxCount) :
      Change (semaphore s) (semaphore (s.reset count)) s.waiters.threads
  | consume {f : EventFlag} {r : EventRequest} (hr : r.check = .ok ()) (hf : f.isTaken = false)
      (h : r.matched f.pattern = true) : Change (eventFlag f) (eventFlag (f.consume r)) []
  | raise (f : EventFlag) (bits : UInt32) :
      Change (eventFlag f) (eventFlag (f.raise bits).1) ((f.raise bits).2.map (·.thread))
  | keep (f : EventFlag) (bits : UInt32) : Change (eventFlag f) (eventFlag (f.keep bits)) []
  | resetFlag (f : EventFlag) (pattern : UInt32) :
      Change (eventFlag f) (eventFlag (f.reset pattern)) f.waiters.threads
  | lock {m m' : Mutex} {thread : ThreadId} {count : Int32} (hcount : m.checkCount count = .ok ())
      (h : m.tryLock thread count = .ok (.acquired m')) : Change (mutex m) (mutex m') []
  | unlock {m m' : Mutex} {thread : ThreadId} {count : Int32} {next : Option ThreadId} (hcount : 0 < count)
      (h : m.unlock thread count = .ok (m', next)) : Change (mutex m) (mutex m') next.toList
  | resetMutex {m : Mutex} {owner : Option ThreadId} {count : Int32}
      (hcount : 1 < count → m.isRecursive = true) (howner : owner.isSome = true ↔ 0 < count) :
      Change (mutex m) (mutex (m.reset owner count)) m.waiters.threads
  | settle {p p' : MessagePipe} {off : List ThreadId} (h : p.SettlesTo p' off) :
      Change (messagePipe p) (messagePipe p') off
  | resetPipe (p : MessagePipe) :
      Change (messagePipe p) (messagePipe p.reset) (p.senders.threads ++ p.receivers.threads)

/-- The wait is the one that a pipe request parks its thread with. -/
structure PipeWaits (p : MessagePipe) (r : PipeRequest) (sending : Bool) (w : Wait) : Prop where
  kind : w.kind = .messagePipe
  handle : w.handle = p.id
  size : w.argument = r.size
  mode : w.mode = r.mode
  address : w.address = r.address
  outAddress : w.resultAddress = r.outAddress
  sending : w.sending = sending

/-- A thread of some priority, parked with a wait, enters a queue of the object that its wait names. -/
inductive Enqueues : Object → ThreadId → UInt32 → Wait → Object → Prop where
  | semaphore {s : Semaphore} {id : ThreadId} {priority : UInt32} {w : Wait} {need : Int32}
      (hkind : w.kind = .semaphore) (hhandle : w.handle = s.id) (hargument : w.argument = need.toUInt32)
      (hneed : 0 < need) (hmax : need ≤ s.maxCount) (h : s.acquire? need = none) :
      Enqueues (.semaphore s) id priority w (.semaphore (s.enqueue ⟨id, priority, need⟩))
  | eventFlag {f : EventFlag} {id : ThreadId} {priority : UInt32} {w : Wait} {r : EventRequest}
      (hkind : w.kind = .eventFlag) (hhandle : w.handle = f.id) (hbits : w.argument = r.bits)
      (hmode : w.mode = r.mode) (hout : w.resultAddress = r.outAddress) (hr : r.check = .ok ())
      (hf : f.isTaken = false) (h : r.matched f.pattern = false) :
      Enqueues (.eventFlag f) id priority w (.eventFlag (f.enqueue ⟨id, priority, r⟩))
  | mutex {m : Mutex} {id : ThreadId} {priority : UInt32} {w : Wait} {count : Int32} {owner : ThreadId}
      (hkind : w.kind = .mutex) (hhandle : w.handle = m.id) (hargument : w.argument = count.toUInt32)
      (hcount : m.checkCount count = .ok ()) (howner : m.owner = some owner) (h : owner ≠ id) :
      Enqueues (.mutex m) id priority w (.mutex (m.enqueue ⟨id, priority, count⟩))
  | sender {p : MessagePipe} {id : ThreadId} {priority : UInt32} {w : Wait} {r : PipeRequest}
      (hwait : PipeWaits p r true w) (hr : p.check r = .ok ())
      (h : p.senders = [] → p.sendAmount? r = none) :
      Enqueues (.messagePipe p) id priority w (.messagePipe (p.enqueueSender ⟨id, priority, r⟩))
  | receiver {p : MessagePipe} {id : ThreadId} {priority : UInt32} {w : Wait} {r : PipeRequest}
      (hwait : PipeWaits p r false w) (hr : p.check r = .ok ())
      (h : p.receivers = [] → p.receiveAmount? r = none) :
      Enqueues (.messagePipe p) id priority w (.messagePipe (p.enqueueReceiver ⟨id, priority, r⟩))
  | join {t : Thread} {id : ThreadId} {priority : UInt32} {w : Wait} (hkind : w.kind = .join)
      (hhandle : w.handle = t.id) (ht : t.isDormant = false) (h : id ≠ t.id) :
      Enqueues (.thread t) id priority w (.thread { t with exitWaiters := t.exitWaiters ++ [id] })

/-! ### Ids, names and kinds stay -/

/-- A change keeps the id and the name. -/
theorem Change.named {o o' : Object} {off : List ThreadId} (h : o.Change o' off) : o'.id = o.id ∧ o'.name = o.name := by
  cases h with
  | acquire _ h =>
    obtain ⟨-, -, rfl⟩ := Semaphore.acquire?_eq_some.mp h
    exact ⟨rfl, rfl⟩
  | lock _ h => obtain ⟨-, rfl⟩ | ⟨-, -, -, rfl⟩ := Mutex.tryLock_acquired h <;> exact ⟨rfl, rfl⟩
  | unlock _ h =>
    obtain ⟨-, -, ⟨-, -, rfl⟩ | ⟨-, -, -, rfl⟩ | ⟨-, w, rest, -, -, rfl⟩⟩ := Mutex.unlock_ok h <;> exact ⟨rfl, rfl⟩
  | settle h => rw [h.frame]; exact ⟨rfl, rfl⟩
  | _ => exact ⟨rfl, rfl⟩

theorem Change.id_eq {o o' : Object} {off : List ThreadId} (h : o.Change o' off) : o'.id = o.id := h.named.1

theorem Change.kind_eq {o o' : Object} {off : List ThreadId} (h : o.Change o' off) : o'.kind = o.kind := by
  cases h <;> rfl

/-- Only objects that are not threads change by calls on them. -/
theorem Change.kind_ne_thread {o o' : Object} {off : List ThreadId} (h : o.Change o' off) :
    o.kind ≠ .thread := by
  cases h <;> simp [kind]

theorem Enqueues.id_eq {o o' : Object} {id : ThreadId} {priority : UInt32} {w : Wait}
    (h : o.Enqueues id priority w o') : o'.id = o.id := by
  cases h <;> rfl

theorem Enqueues.kind_eq {o o' : Object} {id : ThreadId} {priority : UInt32} {w : Wait}
    (h : o.Enqueues id priority w o') : o'.kind = o.kind := by
  cases h <;> rfl

/-- Whoever is queued on an object waits for that object. -/
theorem Enqueues.handle_eq {o o' : Object} {id : ThreadId} {priority : UInt32} {w : Wait}
    (h : o.Enqueues id priority w o') : w.handle = o.id := by
  cases h with
  | semaphore _ hhandle | eventFlag _ hhandle | mutex _ hhandle | join _ hhandle => exact hhandle
  | sender hwait | receiver hwait => exact hwait.handle

theorem id_removeWaiter (o : Object) (thread : ThreadId) : (o.removeWaiter thread).id = o.id := by
  cases o with
  | messagePipe p =>
    simp only [removeWaiter]
    split <;> rfl
  | _ => rfl

theorem kind_removeWaiter (o : Object) (thread : ThreadId) : (o.removeWaiter thread).kind = o.kind := by
  cases o with
  | messagePipe p =>
    simp only [removeWaiter]
    split <;> rfl
  | _ => rfl

end Object
end GuestKernel
