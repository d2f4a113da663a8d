/-
# The entries of an object's queues

A thread that waits on an object stands in one of its queues with what it asks for. All queues of all kinds of objects
are read through `Object.entries`, which lists the queued threads with their demands, and a demand is compared with the
wait that the thread itself has on record by `Wait.Asks`.

| way an object changes | its entries |
| --- | --- |
| `Change` | some leave, and their threads are the ones let go |
| `removeWaiter` | those of one thread leave |
| `Enqueues` | one enters, which asks for what the wait says |

Source: specification, 4.4.
-/

import GuestKernel.Proofs.Changes

namespace GuestKernel

/-- What a queued thread asks of the object it waits on. -/
inductive Demand where
  | exit
  | units (need : Int32)
  | bits (request : EventRequest)
  | holds (count : Int32)
  | send (request : PipeRequest)
  | receive (request : PipeRequest)
deriving DecidableEq

/-- The queues that objects have. -/
inductive Line where
  | semaphore
  | eventFlag
  | mutex
  | senders
  | receivers
deriving DecidableEq

/-- The kind of object that has the queue. -/
def Line.kind : Line → ObjectKind
  | semaphore => .semaphore
  | eventFlag => .eventFlag
  | mutex => .mutex
  | senders | receivers => .messagePipe

/-- The wait is on record with the parameters of the demand. -/
def Wait.Asks (w : Wait) : Demand → Prop
  | .exit => w.kind = .join
  | .units need => w.kind = .semaphore ∧ w.argument = need.toUInt32
  | .bits r => w.kind = .eventFlag ∧ w.argument = r.bits ∧ w.mode = r.mode ∧ w.resultAddress = r.outAddress
  | .holds count => w.kind = .mutex ∧ w.argument = count.toUInt32
  | .send r => w.kind = .messagePipe ∧ w.sending = true ∧ w.argument = r.size ∧ w.mode = r.mode ∧
      w.address = r.address ∧ w.resultAddress = r.outAddress
  | .receive r => w.kind = .messagePipe ∧ w.sending = false ∧ w.argument = r.size ∧ w.mode = r.mode ∧
      w.address = r.address ∧ w.resultAddress = r.outAddress

/-- Who sleeps or delays asks nothing of any object. -/
theorem Wait.Asks.kind_ne {w : Wait} {d : Demand} (h : w.Asks d) : w.kind ≠ .sleep ∧ w.kind ≠ .delay := by
  have hkind : w.kind = .join ∨ w.kind = .semaphore ∨ w.kind = .eventFlag ∨ w.kind = .mutex ∨
      w.kind = .messagePipe := by
    cases d with
    | exit => exact Or.inl h
    | units => exact Or.inr (Or.inl h.1)
    | bits => exact Or.inr (Or.inr (Or.inl h.1))
    | holds => exact Or.inr (Or.inr (Or.inr (Or.inl h.1)))
    | send | receive => exact Or.inr (Or.inr (Or.inr (Or.inr h.1)))
  rcases hkind with hk | hk | hk | hk | hk <;> rw [hk] <;> decide

namespace WaitQueue

variable {ρ : Type} {thread : ThreadId}

/-- The queued threads and what they ask for, as demands. -/
def entries (q : WaitQueue ρ) (demand : ρ → Demand) : List (ThreadId × Demand) :=
  q.map fun w => (w.thread, demand w.request)

theorem map_entries (q : WaitQueue ρ) (demand : ρ → Demand) : (q.entries demand).map (·.1) = q.threads :=
  List.map_map

/-- Wherever a waiter is put, the others stay. -/
theorem perm_enqueue (attributes : UInt32) (w : Waiter ρ) (q : WaitQueue ρ) :
    (q.enqueue attributes w).Perm (w :: q) := by
  unfold enqueue
  split
  · exact List.perm_append_singleton w q
  · have hsplit := List.takeWhile_append_dropWhile (p := fun x : Waiter ρ => decide (x.priority ≤ w.priority)) (l := q)
    refine List.perm_middle.trans (List.Perm.cons w ?_)
    rw [hsplit]

theorem entries_enqueue (attributes : UInt32) (w : Waiter ρ) (q : WaitQueue ρ) (demand : ρ → Demand) :
    ((q.enqueue attributes w).entries demand).Perm ((w.thread, demand w.request) :: q.entries demand) :=
  (perm_enqueue attributes w q).map _

/-- A queued thread is taken out with one entry. -/
theorem entries_remove {q : WaitQueue ρ} (h : thread ∈ q.threads) (demand : ρ → Demand) :
    ∃ r, (q.entries demand).Perm ((thread, demand r) :: (q.remove thread).entries demand) := by
  obtain ⟨x, hx, hthread⟩ := List.mem_map.mp h
  obtain ⟨w, front, back, -, hw, hq, herase⟩ := List.exists_of_eraseP hx (p := (·.thread == thread))
    (by simpa using hthread)
  have hwaiter : w.thread = thread := by simpa using hw
  have hperm : q.Perm (w :: q.remove thread) := by
    unfold remove
    rw [herase, hq]
    exact List.perm_middle
  exact ⟨w.request, hwaiter ▸ hperm.map _⟩

theorem holds_iff {q : WaitQueue ρ} : q.holds thread = true ↔ thread ∈ q.threads := by
  simp [holds, threads]

end WaitQueue

/-- Waiters are served from the front. -/
theorem Semaphore.serve_front (count : Int32) (q : WaitQueue Int32) :
    ∃ front : WaitQueue Int32, q = front ++ (serve count q).2.1 ∧ (serve count q).2.2 = front.threads := by
  induction q generalizing count with
  | nil => exact ⟨[], rfl, rfl⟩
  | cons w rest ih =>
    unfold serve
    split
    · exact ⟨[], rfl, rfl⟩
    · obtain ⟨front, hq, hserved⟩ := ih (count - w.request)
      exact ⟨w :: front, congrArg (w :: ·) hq, congrArg (w.thread :: ·) hserved⟩

/-- Waiters that are let go leave the others as they stand. -/
theorem EventFlag.serve_perm (pattern : UInt32) (q : WaitQueue EventRequest) :
    ∃ gone : WaitQueue EventRequest, q.Perm (gone ++ (serve pattern q).2.1) ∧
      (serve pattern q).2.2.map (·.thread) = gone.threads := by
  induction q generalizing pattern with
  | nil => exact ⟨[], .refl _, rfl⟩
  | cons w rest ih =>
    unfold serve
    split
    · obtain ⟨gone, hq, hgrants⟩ := ih (w.request.cleared pattern)
      exact ⟨w :: gone, hq.cons w, congrArg (w.thread :: ·) hgrants⟩
    · obtain ⟨gone, hq, hgrants⟩ := ih pattern
      exact ⟨gone, (hq.cons w).trans List.perm_middle.symm, hgrants⟩

namespace Object

/-- The queued threads and what they ask for. -/
def entries : Object → List (ThreadId × Demand)
  | thread t => t.exitWaiters.map fun id => (id, .exit)
  | semaphore s => s.waiters.entries .units
  | eventFlag f => f.waiters.entries .bits
  | mutex m => m.waiters.entries .holds
  | messagePipe p => p.senders.entries .send ++ p.receivers.entries .receive
  | callback _ | partitionMemory _ => []

theorem map_entries (o : Object) : o.entries.map (·.1) = o.waiting := by
  cases o <;> simp [entries, waiting, WaitQueue.map_entries, Function.comp_def]

/-- The kind of wait that the threads queued on the object are in. -/
def waitKind? : Object → Option WaitKind
  | thread _ => some .join
  | semaphore _ => some .semaphore
  | eventFlag _ => some .eventFlag
  | mutex _ => some .mutex
  | messagePipe _ => some .messagePipe
  | callback _ | partitionMemory _ => none

/-- An entry of an object asks for what the object is waited on for. -/
theorem waitKind?_eq {o : Object} {e : ThreadId × Demand} {w : Wait} (he : e ∈ o.entries) (h : w.Asks e.2) :
    o.waitKind? = some w.kind := by
  cases o with
  | thread t =>
    obtain ⟨id, -, rfl⟩ := List.mem_map.mp he
    exact congrArg some (Eq.symm h)
  | semaphore s =>
    obtain ⟨x, -, rfl⟩ := List.mem_map.mp he
    exact congrArg some h.1.symm
  | eventFlag f =>
    obtain ⟨x, -, rfl⟩ := List.mem_map.mp he
    exact congrArg some h.1.symm
  | mutex m =>
    obtain ⟨x, -, rfl⟩ := List.mem_map.mp he
    exact congrArg some h.1.symm
  | messagePipe p =>
    rcases List.mem_append.mp he with he | he <;> obtain ⟨x, -, rfl⟩ := List.mem_map.mp he <;>
      exact congrArg some h.1.symm
  | callback c => cases he
  | partitionMemory b => cases he

/-- Entries have left the object's queues, and `off` are their threads. -/
def Releases (o o' : Object) (off : List ThreadId) : Prop :=
  ∃ gone, o.entries.Perm (gone ++ o'.entries) ∧ off.Perm (gone.map (·.1))

/-- The same queues. -/
theorem Releases.of_entries {o o' : Object} (h : o'.entries = o.entries) : o.Releases o' [] :=
  ⟨[], by rw [h]; exact .refl _, .refl _⟩

/-- Emptied queues. -/
theorem Releases.of_empty {o o' : Object} (h : o'.entries = []) : o.Releases o' o.waiting :=
  ⟨o.entries, by rw [h, List.append_nil], by rw [map_entries]⟩

/-- **A call that changes an object lets go the threads it takes off the queues.** -/
theorem Change.releases {o o' : Object} {off : List ThreadId} (h : o.Change o' off) : o.Releases o' off := by
  cases h with
  | notify | take | consume | keep => exact .of_entries rfl
  | acquire _ h =>
    obtain ⟨-, -, rfl⟩ := Semaphore.acquire?_eq_some.mp h
    exact .of_entries rfl
  | @release s amount =>
    obtain ⟨front, hq, hserved⟩ := Semaphore.serve_front (s.count + amount) s.waiters
    refine ⟨front.entries .units, ?_, ?_⟩
    · show (s.waiters.map _).Perm (front.map _ ++ (Semaphore.serve (s.count + amount) s.waiters).2.1.map _)
      rw [← List.map_append, ← hq]
    · show (Semaphore.serve (s.count + amount) s.waiters).2.2.Perm _
      rw [hserved, WaitQueue.map_entries]
  | resetSemaphore | resetFlag | resetMutex => exact .of_empty rfl
  | raise f bits =>
    obtain ⟨gone, hq, hgrants⟩ := EventFlag.serve_perm (f.pattern ||| bits) f.waiters
    refine ⟨gone.entries .bits, ?_, ?_⟩
    · show (f.waiters.map _).Perm (gone.map _ ++ (EventFlag.serve (f.pattern ||| bits) f.waiters).2.1.map _)
      rw [← List.map_append]
      exact hq.map _
    · show ((EventFlag.serve (f.pattern ||| bits) f.waiters).2.2.map _).Perm _
      rw [hgrants, WaitQueue.map_entries]
  | lock _ h => obtain ⟨-, rfl⟩ | ⟨-, -, -, rfl⟩ := Mutex.tryLock_acquired h <;> exact .of_entries rfl
  | @unlock m m' thread count next _ h =>
    obtain ⟨-, -, ⟨-, rfl, rfl⟩ | ⟨-, -, rfl, rfl⟩ | ⟨-, w, rest, hq, rfl, rfl⟩⟩ := Mutex.unlock_ok h
    · exact .of_entries rfl
    · exact .of_entries rfl
    · refine ⟨[(w.thread, .holds w.request)], ?_, .refl _⟩
      show (m.waiters.entries .holds).Perm _
      rw [hq]
      exact .refl _
  | @settle p p' off h =>
    obtain ⟨sent, received, hs, hr, hoff⟩ := h.served
    refine ⟨sent.entries .send ++ received.entries .receive, ?_, ?_⟩
    · show (p.senders.map _ ++ p.receivers.map _).Perm
        (sent.map _ ++ received.map _ ++ (p'.senders.map _ ++ p'.receivers.map _))
      rw [hs, hr, List.map_append, List.map_append, List.append_assoc, List.append_assoc]
      refine List.Perm.append_left _ ?_
      rw [← List.append_assoc, ← List.append_assoc]
      exact List.perm_append_comm.append_right _
    · rw [List.map_append, WaitQueue.map_entries, WaitQueue.map_entries]
      exact hoff
  | resetPipe p => exact .of_empty rfl

/-- Whom a change of an object lets go stood in its queues. -/
theorem Change.off_subset {o o' : Object} {off : List ThreadId} (h : o.Change o' off) : off ⊆ o.waiting := by
  intro id hid
  obtain ⟨gone, hentries, hoff⟩ := h.releases
  rw [← map_entries]
  exact (hentries.map _).mem_iff.mpr (List.map_append ▸ List.mem_append_left _ (hoff.mem_iff.mp hid))

/-- A queued thread that gives up leaves with one entry. -/
theorem releases_removeWaiter {o : Object} {id : ThreadId} (hn : o.waiting.Nodup) (h : id ∈ o.waiting) :
    o.Releases (o.removeWaiter id) [id] := by
  cases o with
  | thread t =>
    refine ⟨[(id, .exit)], ?_, .refl _⟩
    have hperm := List.perm_cons_erase h
    rw [hn.erase_eq_filter] at hperm
    exact hperm.map fun id => (id, Demand.exit)
  | callback c => cases h
  | semaphore s =>
    obtain ⟨need, hperm⟩ := WaitQueue.entries_remove h .units
    exact ⟨[(id, .units need)], hperm, .refl _⟩
  | eventFlag f =>
    obtain ⟨r, hperm⟩ := WaitQueue.entries_remove h .bits
    exact ⟨[(id, .bits r)], hperm, .refl _⟩
  | mutex m =>
    obtain ⟨count, hperm⟩ := WaitQueue.entries_remove h .holds
    exact ⟨[(id, .holds count)], hperm, .refl _⟩
  | messagePipe p =>
    simp only [removeWaiter]
    by_cases hs : p.senders.holds id = true
    · rw [if_pos hs]
      obtain ⟨r, hperm⟩ := WaitQueue.entries_remove (WaitQueue.holds_iff.mp hs) .send
      exact ⟨[(id, .send r)], hperm.append_right _, .refl _⟩
    · rw [if_neg hs]
      have hr : id ∈ p.receivers.threads := by
        rcases List.mem_append.mp h with h | h
        · exact absurd (WaitQueue.holds_iff.mpr h) hs
        · exact h
      obtain ⟨r, hperm⟩ := WaitQueue.entries_remove hr .receive
      exact ⟨[(id, .receive r)], (hperm.append_left _).trans List.perm_middle, .refl _⟩
  | partitionMemory b => cases h

/-- **A parked thread enters the object's queue with what its wait says.** -/
theorem Enqueues.entries {o o' : Object} {id : ThreadId} {priority : UInt32} {w : Wait}
    (h : o.Enqueues id priority w o') : ∃ d, w.Asks d ∧ o'.entries.Perm ((id, d) :: o.entries) := by
  cases h with
  | @semaphore s _ _ _ need hkind _ hargument =>
    exact ⟨.units need, ⟨hkind, hargument⟩, WaitQueue.entries_enqueue s.attributes _ s.waiters .units⟩
  | @eventFlag f _ _ _ r hkind _ hbits hmode hout =>
    exact ⟨.bits r, ⟨hkind, hbits, hmode, hout⟩, WaitQueue.entries_enqueue f.attributes _ f.waiters .bits⟩
  | @mutex m _ _ _ count _ hkind _ hargument =>
    exact ⟨.holds count, ⟨hkind, hargument⟩, WaitQueue.entries_enqueue m.attributes _ m.waiters .holds⟩
  | @sender p _ _ _ r hw =>
    refine ⟨.send r, ⟨hw.kind, hw.sending, hw.size, hw.mode, hw.address, hw.outAddress⟩, ?_⟩
    exact (WaitQueue.entries_enqueue p.attributes _ p.senders .send).append_right _
  | @receiver p _ _ _ r hw =>
    refine ⟨.receive r, ⟨hw.kind, hw.sending, hw.size, hw.mode, hw.address, hw.outAddress⟩, ?_⟩
    exact ((WaitQueue.entries_enqueue p.attributes _ p.receivers .receive).append_left _).trans List.perm_middle
  | @join t _ _ _ hkind =>
    exact ⟨.exit, hkind, (List.perm_append_singleton id t.exitWaiters).map fun id => (id, Demand.exit)⟩

/-- Nobody is queued on a new object. -/
theorem IsNew.entries_eq {o : Object} (h : o.IsNew) : o.entries = [] := by
  cases o with
  | thread t => exact congrArg (List.map _) h.2.2.1
  | semaphore s => exact congrArg (List.map _) h.1
  | eventFlag f => exact congrArg (List.map _) h
  | mutex m => exact congrArg (List.map _) h.1
  | messagePipe p =>
    obtain ⟨-, hs, hr, -⟩ := h
    show p.senders.entries _ ++ p.receivers.entries _ = []
    rw [hs, hr]
    rfl
  | callback c => rfl
  | partitionMemory b => rfl

end Object
end GuestKernel
