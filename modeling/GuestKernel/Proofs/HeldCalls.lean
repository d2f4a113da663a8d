/-
# Objects and a thread on hold

The calls on semaphores, event flags, mutexes, message pipes and guest blocks answer alike whether or not a thread is on
hold, and leave kernels that still differ in the hold alone. A thread on hold keeps its place in every queue, and
whoever grants, cancels or deletes meets it there.

Source: specification, 4.2.
-/

import GuestKernel.Proofs.HeldThreads
import GuestKernel.Proofs.MutexOwnership

namespace GuestKernel
namespace Kernel

variable {id : ThreadId} {k k' : Kernel} {x : ObjectId} {α β : Type}

namespace Holds

/-! ### Semaphores -/

variable (h : Holds id k k') {name : String}
  {attributes timeoutAddress waitingAddress address initialPattern bits pattern size sendersAddress receiversAddress : UInt32}
  {initialCount maxCount amount need count : Int32} {callbacks : Bool} {r : EventRequest} {partition : PartitionId}

include h

theorem createSemaphore (hfresh : k.nextId ≠ id) : Agrees id (k.createSemaphore name attributes initialCount maxCount)
      (k'.createSemaphore name attributes initialCount maxCount) := by
  unfold Kernel.createSemaphore
  rw [show k'.nextId = k.nextId from h.nextId]
  split
  · exact .refuse h _
  · exact .done (h.registerNew (.semaphore (.new k.nextId name attributes initialCount maxCount)) hfresh) _

/-- An object is unregistered, and those that waited on it go on with an error. -/
theorem unregisterWaking {kind : ObjectKind} (hkind : kind ≠ .thread) (ids : List ThreadId)
    (result : Int32) : Agrees id ((k.unregister kind x).andThen fun _ k => (k.wakeAll ids result).done ())
      ((k'.unregister kind x).andThen fun _ k => (k.wakeAll ids result).done ()) := by
  have hun := h.unregister kind x fun heq => absurd heq hkind
  exact hun.andThen fun _ _ => .done (hun.kernel.wakeAll ids result) ()

theorem deleteSemaphore : Agrees id (k.deleteSemaphore x) (k'.deleteSemaphore x) := by
  unfold Kernel.deleteSemaphore
  rw [h.semaphore?]
  cases k.objects.semaphore? x with
  | none => exact .refuse h _
  | some s => exact h.unregisterWaking (by decide) _ _

theorem signalSemaphore : Agrees id (k.signalSemaphore x amount) (k'.signalSemaphore x amount) := by
  unfold Kernel.signalSemaphore
  rw [h.semaphore?]
  cases hs : k.objects.semaphore? x with
  | none => exact .refuse h _
  | some s =>
    have hput := h.change (ObjectTable.semaphore?_eq_some.mp hs) rfl (.semaphore (s.release amount).1) rfl
    dsimp only
    split
    · exact .refuse h _
    split
    · exact .refuse h _
    · exact .done (hput.wakeAll _ _) ()

theorem waitSemaphore :
    Agrees id (k.waitSemaphore x need timeoutAddress callbacks) (k'.waitSemaphore x need timeoutAddress callbacks) := by
  unfold Kernel.waitSemaphore
  rw [h.semaphore?]
  cases hs : k.objects.semaphore? x with
  | none => exact .refuse h _
  | some s =>
    have hget := ObjectTable.semaphore?_eq_some.mp hs
    dsimp only
    split
    · exact .refuse h _
    cases ha : s.acquire? need with
    | some s' =>
      obtain ⟨-, -, rfl⟩ := Semaphore.acquire?_eq_some.mp ha
      exact .done (h.change hget rfl (.semaphore { s with count := s.count - need }) rfl) _
    | none => exact h.blockOn hget rfl _ _ fun _ => rfl

theorem pollSemaphore : Agrees id (k.pollSemaphore x need) (k'.pollSemaphore x need) := by
  unfold Kernel.pollSemaphore
  rw [h.semaphore?]
  cases hs : k.objects.semaphore? x with
  | none => exact .refuse h _
  | some s =>
    dsimp only
    split
    · exact .refuse h _
    cases ha : s.acquire? need with
    | some s' =>
      obtain ⟨-, -, rfl⟩ := Semaphore.acquire?_eq_some.mp ha
      exact .done (h.change (ObjectTable.semaphore?_eq_some.mp hs) rfl (.semaphore { s with count := s.count - need }) rfl) ()
    | none => exact .refuse h _

/-- An object has its new value, its waiters are counted for the guest, and they are sent away. -/
theorem drain (address value : UInt32) (ids : List ThreadId) (result : Int32) : Agrees id
      ((k.withMemory (k.memory.writeOptional address value)).andThen fun _ k => (k.wakeAll ids result).done ())
      ((k'.withMemory (k'.memory.writeOptional address value)).andThen fun _ k => (k.wakeAll ids result).done ()) := by
  rw [h.memory]
  have hwritten := Agrees.withMemory h (k.memory.writeOptional address value)
  exact hwritten.andThen fun _ _ => .done (hwritten.kernel.wakeAll ids result) ()

theorem cancelSemaphore :
    Agrees id (k.cancelSemaphore x count waitingAddress) (k'.cancelSemaphore x count waitingAddress) := by
  unfold Kernel.cancelSemaphore
  rw [h.semaphore?]
  cases hs : k.objects.semaphore? x with
  | none => exact .refuse h _
  | some s =>
    dsimp only
    split
    · exact .refuse h _
    · exact (h.change (ObjectTable.semaphore?_eq_some.mp hs) rfl (.semaphore (s.reset count)) rfl).drain _ _ _ _

theorem writeStatus (address : UInt32) (name : String) (words : List UInt32) :
    Agrees id (k.writeStatus address name words) (k'.writeStatus address name words) := by
  unfold Kernel.writeStatus
  rw [h.memory]
  exact .withMemory h _

theorem referSemaphore : Agrees id (k.referSemaphore x address) (k'.referSemaphore x address) := by
  unfold Kernel.referSemaphore
  rw [h.semaphore?]
  cases k.objects.semaphore? x with
  | none => exact .refuse h _
  | some s => exact h.writeStatus _ _ _

/-! ### Event flags -/

theorem createEventFlag (hfresh : k.nextId ≠ id) :
    Agrees id (k.createEventFlag name attributes initialPattern) (k'.createEventFlag name attributes initialPattern) := by
  unfold Kernel.createEventFlag
  rw [show k'.nextId = k.nextId from h.nextId]
  exact .done (h.registerNew (.eventFlag (.new k.nextId name attributes initialPattern)) hfresh) _

theorem deleteEventFlag : Agrees id (k.deleteEventFlag x) (k'.deleteEventFlag x) := by
  unfold Kernel.deleteEventFlag
  rw [h.eventFlag?]
  cases k.objects.eventFlag? x with
  | none => exact .refuse h _
  | some f => exact h.unregisterWaking (by decide) _ _

theorem grantEvent (flag : ObjectId) (g : EventGrant) : Holds id (k.grantEvent flag g) (k'.grantEvent flag g) := by
  unfold Kernel.grantEvent
  rw [h.memory]
  refine Holds.wake ?_ _ _
  split
  · exact h.setMemory _
  · exact (h.note _ _).note _ _

theorem setEventFlag : Agrees id (k.setEventFlag x bits) (k'.setEventFlag x bits) := by
  unfold Kernel.setEventFlag
  rw [h.eventFlag?]
  cases hf : k.objects.eventFlag? x with
  | none => exact .refuse h _
  | some f =>
    have hgrants : ∀ (grants : List EventGrant) {k k' : Kernel}, Holds id k k' →
        Holds id (grants.foldl (fun k g => k.grantEvent x g) k) (grants.foldl (fun k g => k.grantEvent x g) k') := by
      intro grants
      induction grants with
      | nil => exact fun h => h
      | cons g rest ih => exact fun h => ih (h.grantEvent x g)
    exact .done (hgrants _ (h.change (ObjectTable.eventFlag?_eq_some.mp hf) rfl (.eventFlag (f.raise bits).1) rfl)) ()

theorem clearEventFlag : Agrees id (k.clearEventFlag x bits) (k'.clearEventFlag x bits) := by
  unfold Kernel.clearEventFlag
  rw [h.eventFlag?]
  cases hf : k.objects.eventFlag? x with
  | none => exact .refuse h _
  | some f => exact .done (h.change (ObjectTable.eventFlag?_eq_some.mp hf) rfl (.eventFlag (f.keep bits)) rfl) ()

theorem admitEventRequest (x : ObjectId) (r : EventRequest) : k'.admitEventRequest x r = k.admitEventRequest x r := by
  unfold Kernel.admitEventRequest
  rw [h.eventFlag?]

theorem waitEventFlag :
    Agrees id (k.waitEventFlag x r timeoutAddress callbacks) (k'.waitEventFlag x r timeoutAddress callbacks) := by
  unfold Kernel.waitEventFlag
  rw [h.admitEventRequest]
  cases hf : k.admitEventRequest x r with
  | error e => exact .refuse h e
  | ok f =>
    obtain ⟨hget, -, -⟩ := admitEventRequest_eq_ok hf
    have hput := h.change hget rfl (.eventFlag (f.consume r)) rfl
    dsimp only
    split
    · rw [hput.memory]
      exact (Agrees.withMemory hput _).map _
    · exact h.blockOn hget rfl _ _ fun _ => rfl

theorem pollEventFlag : Agrees id (k.pollEventFlag x r) (k'.pollEventFlag x r) := by
  unfold Kernel.pollEventFlag
  rw [h.admitEventRequest]
  cases hf : k.admitEventRequest x r with
  | error e => exact .refuse h e
  | ok f =>
    obtain ⟨hget, -, -⟩ := admitEventRequest_eq_ok hf
    have hput := h.change hget rfl (.eventFlag (f.consume r)) rfl
    dsimp only
    split
    · rw [hput.memory]
      have hwritten := Agrees.withMemory hput (k.memory.writeOptional r.outAddress f.pattern)
      exact hwritten.andThen fun _ _ => .done hwritten.kernel ()
    · rw [h.memory]
      have hwritten := Agrees.withMemory h (k.memory.writeOptional r.outAddress f.pattern)
      exact hwritten.andThen fun _ _ => .refuse hwritten.kernel _

theorem cancelEventFlag :
    Agrees id (k.cancelEventFlag x pattern waitingAddress) (k'.cancelEventFlag x pattern waitingAddress) := by
  unfold Kernel.cancelEventFlag
  rw [h.eventFlag?]
  cases hf : k.objects.eventFlag? x with
  | none => exact .refuse h _
  | some f => exact (h.change (ObjectTable.eventFlag?_eq_some.mp hf) rfl (.eventFlag (f.reset pattern)) rfl).drain _ _ _ _

theorem referEventFlag : Agrees id (k.referEventFlag x address) (k'.referEventFlag x address) := by
  unfold Kernel.referEventFlag
  rw [h.eventFlag?]
  cases k.objects.eventFlag? x with
  | none => exact .refuse h _
  | some f => exact h.writeStatus _ _ _

/-! ### Mutexes -/

theorem currentId : k'.currentId = k.currentId := by
  unfold Kernel.currentId
  rw [h.current]

theorem ownerFor (count : Int32) : k'.ownerFor count = k.ownerFor count := by
  unfold Kernel.ownerFor
  rw [h.currentId]

theorem createMutex (hfresh : k.nextId ≠ id) :
    Agrees id (k.createMutex name attributes initialCount) (k'.createMutex name attributes initialCount) := by
  unfold Kernel.createMutex
  rw [h.ownerFor, show k'.nextId = k.nextId from h.nextId]
  split
  · exact .refuse h _
  cases k.ownerFor initialCount with
  | error e => exact .refuse h e
  | ok owner => exact .done (h.registerNew (.mutex (.new k.nextId name attributes initialCount owner)) hfresh) _

theorem deleteMutex : Agrees id (k.deleteMutex x) (k'.deleteMutex x) := by
  unfold Kernel.deleteMutex
  rw [h.mutex?]
  cases k.objects.mutex? x with
  | none => exact .refuse h _
  | some m => exact h.unregisterWaking (by decide) _ _

theorem attemptLock (x : ObjectId) (count : Int32) : k'.attemptLock x count = k.attemptLock x count := by
  unfold Kernel.attemptLock
  rw [h.mutex?, h.currentId]

/-- The mutex that a thread has got stands in the place of the one that it tried. -/
theorem lockPut {count : Int32} {m m' : Mutex} (ha : k.attemptLock x count = .ok (m, .acquired m')) :
    Holds id (k.put (.mutex m')) (k'.put (.mutex m')) := by
  obtain ⟨thread, hget, hcheck, -, hlock⟩ := attemptLock_eq_ok ha
  exact h.change hget rfl (.mutex m') (Object.Change.lock hcheck hlock).id_eq

theorem lockMutex :
    Agrees id (k.lockMutex x count timeoutAddress callbacks) (k'.lockMutex x count timeoutAddress callbacks) := by
  unfold Kernel.lockMutex
  rw [h.attemptLock]
  cases ha : k.attemptLock x count with
  | error e => exact .refuse h e
  | ok attempt =>
    obtain ⟨m, attempt⟩ := attempt
    cases attempt with
    | acquired m' => exact .done (h.lockPut ha) _
    | contended =>
      obtain ⟨-, hget, -⟩ := attemptLock_eq_ok ha
      exact h.blockOn hget rfl _ _ fun _ => rfl

theorem tryLockMutex : Agrees id (k.tryLockMutex x count) (k'.tryLockMutex x count) := by
  unfold Kernel.tryLockMutex
  rw [h.attemptLock]
  cases ha : k.attemptLock x count with
  | error e => exact .refuse h e
  | ok attempt =>
    obtain ⟨m, attempt⟩ := attempt
    cases attempt with
    | acquired m' => exact .done (h.lockPut ha) ()
    | contended => exact .refuse h _

theorem unlockMutex : Agrees id (k.unlockMutex x count) (k'.unlockMutex x count) := by
  unfold Kernel.unlockMutex
  rw [h.mutex?, h.currentId]
  cases hm : k.objects.mutex? x with
  | none => exact .refuse h _
  | some m =>
    dsimp only
    split
    · exact .refuse h _
    cases k.currentId with
    | error e => exact .refuse h e
    | ok thread =>
      dsimp only
      cases hu : m.unlock thread count with
      | error e => exact .refuse h e
      | ok unlocked =>
        obtain ⟨m', next⟩ := unlocked
        have hid : m'.id = m.id := by
          obtain ⟨-, -, ⟨-, -, rfl⟩ | ⟨-, -, -, rfl⟩ | ⟨-, w, rest, -, -, rfl⟩⟩ := Mutex.unlock_ok hu <;> rfl
        have hput := h.change (ObjectTable.mutex?_eq_some.mp hm) rfl (.mutex m') hid
        cases next with
        | none => exact .done hput ()
        | some next => exact .done ((hput.note _ _).wake _ _) ()

theorem cancelMutex : Agrees id (k.cancelMutex x count waitingAddress) (k'.cancelMutex x count waitingAddress) := by
  unfold Kernel.cancelMutex
  rw [h.mutex?, h.ownerFor]
  cases hm : k.objects.mutex? x with
  | none => exact .refuse h _
  | some m =>
    dsimp only
    split
    · exact .refuse h _
    cases k.ownerFor count with
    | error e => exact .refuse h e
    | ok owner => exact (h.change (ObjectTable.mutex?_eq_some.mp hm) rfl (.mutex (m.reset owner count)) rfl).drain _ _ _ _

theorem referMutex : Agrees id (k.referMutex x address) (k'.referMutex x address) := by
  unfold Kernel.referMutex
  rw [h.mutex?]
  cases k.objects.mutex? x with
  | none => exact .refuse h _
  | some m => exact h.writeStatus _ _ _

/-! ### Message pipes -/

/-- What is made with the next id is the same in both kernels. -/
theorem registerNoted (hfresh : k.nextId ≠ id) (e : ObjectId → Event) (make : ObjectId → Object)
    (hmake : ∀ x, (make x).id = x) : Agrees id (((k.note (e k.nextId)).registerNew (make k.nextId)).done k.nextId)
      (((k'.note (e k'.nextId)).registerNew (make k'.nextId)).done k'.nextId) := by
  rw [show k'.nextId = k.nextId from h.nextId]
  exact .done ((h.note _ _).registerNew _ (by rw [hmake]; exact hfresh)) _

theorem createPipe (hfresh : k.nextId ≠ id) :
    Agrees id (k.createPipe name partition attributes size) (k'.createPipe name partition attributes size) := by
  unfold Kernel.createPipe
  split
  · exact .refuse h _
  have hblock := h.allocateBlock partition ("pipe:" ++ name) .low pipeAlignment size
  exact hblock.andThen fun block _ =>
    hblock.kernel.registerNoted (by rwa [(sameObjects_allocateBlock ..).nextId]) (.pipeCreated name · partition block)
      (fun x => .messagePipe { id := x, name, attributes, partition, block }) fun _ => rfl

theorem deletePipe : Agrees id (k.deletePipe x) (k'.deletePipe x) := by
  unfold Kernel.deletePipe
  rw [h.messagePipe?]
  cases k.objects.messagePipe? x with
  | none => exact .refuse h _
  | some p =>
    dsimp only
    split
    · exact .refuse h _
    · have hfreed := h.freeBlock p.partition p.block
      exact hfreed.andThen fun _ _ => hfreed.kernel.unregister _ x (by rintro ⟨⟩)

theorem completeReceive (pipe : ObjectId) (w : Waiter PipeRequest) (bytes : List UInt8) :
    Holds id (k.completeReceive pipe w bytes) (k'.completeReceive pipe w bytes) := by
  unfold Kernel.completeReceive
  rw [h.memory]
  split
  · exact (((h.note _ _).note _ _).note _ _).wake _ _
  · dsimp only
    split
    · exact ((((h.setMemory _).note _ _).note _ _).note _ _).wake _ _
    · exact ((h.setMemory _).note _ _).wake _ _

theorem completeSend (p : MessagePipe) (w : Waiter PipeRequest) (amount : Nat) :
    (k'.completeSend p w amount).2 = (k.completeSend p w amount).2 ∧
      Holds id (k.completeSend p w amount).1 (k'.completeSend p w amount).1 := by
  unfold Kernel.completeSend
  rw [h.memory]
  split
  · exact ⟨rfl, (((h.note _ _).note _ _).note _ _).wake _ _⟩
  · split
    · exact ⟨rfl, ((h.note _ _).note _ _).wake _ _⟩
    · exact ⟨rfl, ((h.setMemory _).note _ _).wake _ _⟩

theorem transfer (p : MessagePipe) (t : MessagePipe.Transfer) :
    (k'.transfer p t).2 = (k.transfer p t).2 ∧ Holds id (k.transfer p t).1 (k'.transfer p t).1 := by
  cases t with
  | receive w bytes => exact ⟨rfl, h.completeReceive p.id w bytes⟩
  | send w amount => exact h.completeSend p w amount
  | reject w f => exact ⟨rfl, ((h.note _ _).note _ _).wake _ _⟩

/-- The rounds of a pipe are the same in both kernels. -/
theorem settleFor (p : MessagePipe) (rounds : Nat) : (k'.settleFor p rounds).2 = (k.settleFor p rounds).2 ∧
      Holds id (k.settleFor p rounds).1 (k'.settleFor p rounds).1 := by
  induction rounds generalizing k k' p with
  | zero => exact ⟨rfl, h⟩
  | succ n ih =>
    unfold Kernel.settleFor
    rw [h.memory]
    cases p.next? k.memory with
    | none => exact ⟨rfl, h⟩
    | some next =>
      obtain ⟨hpipe, hkernel⟩ := h.transfer next.2 next.1
      dsimp only
      rw [hpipe]
      exact ih hkernel _

theorem settle {p : MessagePipe} (hne : p.id ≠ id) : Holds id (k.settle p) (k'.settle p) := by
  unfold Kernel.settle
  obtain ⟨hpipe, hkernel⟩ := h.settleFor p (p.senders.length + p.receivers.length)
  obtain ⟨_, hserves, -⟩ := Moves.settleFor_settles (A := fun _ => True) (k := k) (fun _ _ => trivial) p
    (p.senders.length + p.receivers.length)
  dsimp only
  rw [hpipe]
  exact hkernel.put (show (k.settleFor p _).2.id ≠ id by rw [hserves.frame]; exact hne)

theorem admitPipeRequest (x : ObjectId) (r : PipeRequest) : k'.admitPipeRequest x r = k.admitPipeRequest x r := by
  unfold Kernel.admitPipeRequest
  rw [h.messagePipe?]

theorem trySendPipe (r : PipeRequest) : Agrees id (k.trySendPipe x r) (k'.trySendPipe x r) := by
  unfold Kernel.trySendPipe
  rw [h.admitPipeRequest, h.memory]
  cases hp : k.admitPipeRequest x r with
  | error e => exact .refuse h e
  | ok p =>
    have hne : p.id ≠ id := h.ne_of_kind (admitPipeRequest_eq_ok hp).2.1 (by simp [Object.kind])
    dsimp only
    split
    · exact .refuse h _
    · split
      · exact .fault h _
      · split
        · exact .fault h _
        · next bytes _ =>
          split
          · exact .done ((h.setMemory _).settle (p := p.push bytes) hne) ()
          · exact .refuse ((h.note _ _).settle (p := p.push bytes) hne) _

theorem tryReceivePipe (r : PipeRequest) : Agrees id (k.tryReceivePipe x r) (k'.tryReceivePipe x r) := by
  unfold Kernel.tryReceivePipe
  rw [h.admitPipeRequest, h.memory]
  cases hp : k.admitPipeRequest x r with
  | error e => exact .refuse h e
  | ok p =>
    have hne : p.id ≠ id := h.ne_of_kind (admitPipeRequest_eq_ok hp).2.1 (by simp [Object.kind])
    dsimp only
    split
    · exact .refuse h _
    · next amount _ =>
      have hput : ∀ {k k'}, Holds id k k' →
          Holds id (k.put (.messagePipe (p.drop amount))) (k'.put (.messagePipe (p.drop amount))) :=
        fun h => h.put (o := .messagePipe (p.drop amount)) hne
      split
      · exact .fault h _
      · split
        · exact .fault (hput h) _
        · split
          · exact .fault (hput (h.setMemory _)) _
          · exact .done ((h.setMemory _).settle (p := p.drop amount) hne) ()

theorem blockOnPipe (x : ObjectId) (r : PipeRequest) (timeoutAddress : UInt32) (callbacks sending : Bool) :
    Agrees id (k.blockOnPipe x r timeoutAddress callbacks sending) (k'.blockOnPipe x r timeoutAddress callbacks sending) := by
  unfold Kernel.blockOnPipe
  rw [h.messagePipe?]
  cases hp : k.objects.messagePipe? x with
  | none => exact .refuse h _
  | some p =>
    refine h.blockOn (ObjectTable.messagePipe?_eq_some.mp hp) rfl _ _ fun w => ?_
    cases sending <;> rfl

theorem sendPipe (r : PipeRequest) :
    Agrees id (k.sendPipe x r timeoutAddress callbacks) (k'.sendPipe x r timeoutAddress callbacks) := by
  obtain ⟨result, k₁, k₁', htry, htry', hk⟩ := (h.trySendPipe r).parts
  unfold Kernel.sendPipe
  rw [htry, htry']
  split
  · next heq =>
    cases heq
    exact hk.blockOnPipe x r timeoutAddress callbacks true
  · next hne =>
    split
    · next heq =>
      cases heq
      exact absurd rfl (hne k₁)
    · exact ⟨rfl, hk⟩

theorem receivePipe (r : PipeRequest) :
    Agrees id (k.receivePipe x r timeoutAddress callbacks) (k'.receivePipe x r timeoutAddress callbacks) := by
  obtain ⟨result, k₁, k₁', htry, htry', hk⟩ := (h.tryReceivePipe r).parts
  unfold Kernel.receivePipe
  rw [htry, htry']
  split
  · next heq =>
    cases heq
    exact hk.blockOnPipe x r timeoutAddress callbacks false
  · next hne =>
    split
    · next heq =>
      cases heq
      exact absurd rfl (hne k₁)
    · exact ⟨rfl, hk⟩

theorem cancelPipe :
    Agrees id (k.cancelPipe x sendersAddress receiversAddress) (k'.cancelPipe x sendersAddress receiversAddress) := by
  unfold Kernel.cancelPipe
  rw [h.messagePipe?]
  cases hp : k.objects.messagePipe? x with
  | none => exact .refuse h _
  | some p =>
    have hput := h.change (ObjectTable.messagePipe?_eq_some.mp hp) rfl (.messagePipe p.reset) rfl
    dsimp only
    rw [hput.memory]
    have hsenders := Agrees.withMemory hput
      ((k.put (.messagePipe p.reset)).memory.writeOptional sendersAddress (UInt32.ofNat p.senders.length))
    refine hsenders.andThen fun _ _ => ?_
    rw [hsenders.kernel.memory]
    have hreceivers := Agrees.withMemory hsenders.kernel
      (((k.put (.messagePipe p.reset)).withMemory ((k.put (.messagePipe p.reset)).memory.writeOptional sendersAddress
        (UInt32.ofNat p.senders.length))).kernel.memory.writeOptional receiversAddress (UInt32.ofNat p.receivers.length))
    exact hreceivers.andThen fun _ _ => .done (hreceivers.kernel.wakeAll _ _) ()

theorem referPipe : Agrees id (k.referPipe x address) (k'.referPipe x address) := by
  unfold Kernel.referPipe
  rw [h.messagePipe?]
  cases k.objects.messagePipe? x with
  | none => exact .refuse h _
  | some p => exact h.writeStatus _ _ _

/-! ### Memory of a partition -/

theorem allocateMemory (hfresh : k.nextId ≠ id) (partition : PartitionId) (name : String) (kind size address : UInt32) :
    Agrees id (k.allocateMemory partition name kind size address) (k'.allocateMemory partition name kind size address) := by
  unfold Kernel.allocateMemory
  cases placementOf kind address with
  | error e => exact .refuse h e
  | ok placement =>
    dsimp only
    split
    · exact .refuse h _
    have hblock := h.allocateBlock partition name placement (alignmentOf placement) size
    exact hblock.andThen fun block _ =>
      hblock.kernel.registerNoted (by rwa [(sameObjects_allocateBlock ..).nextId]) (.guestBlockAllocated partition · block)
        (fun x => .partitionMemory { id := x, partition, block }) fun _ => rfl

theorem freeMemory (x : ObjectId) : Agrees id (k.freeMemory x) (k'.freeMemory x) := by
  unfold Kernel.freeMemory
  rw [h.partitionMemory?]
  cases k.objects.partitionMemory? x with
  | none => exact .refuse h _
  | some b =>
    have hfreed := h.freeBlock b.partition b.block
    exact hfreed.andThen fun _ _ => hfreed.kernel.unregister _ x (by rintro ⟨⟩)

theorem blockAddress (x : ObjectId) : k'.blockAddress x = k.blockAddress x := by
  unfold Kernel.blockAddress
  rw [h.partitionMemory?]

theorem threadPartitionSize (measure : Partition → UInt32) :
    k'.threadPartitionSize measure = k.threadPartitionSize measure := by
  unfold Kernel.threadPartitionSize
  rw [h.partitions, h.config]

end Holds

end Kernel
end GuestKernel
