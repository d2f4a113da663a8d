/-
# Calls on semaphores, event flags, mutexes and blocks as moves

A call on one of these objects makes at most one move of that object. The threads it lets go are in transit after that
move and are woken one by one. A call that cancels all waits on an object empties the queue before it writes how many
waited; when that write is refused nobody is woken, and the threads stay in transit (`Drains`).

Source: specification, 4.6.
-/

import GuestKernel.Proofs.ThreadMoves

namespace GuestKernel

namespace Kernel

variable {k : Kernel} {count : Int32} {id : ObjectId}

/-- A mutex has an owner exactly if it is held. -/
theorem isSome_ownerFor {owner : Option ThreadId} (h : k.ownerFor count = .ok owner) :
    owner.isSome = true ↔ 0 < count := by
  unfold ownerFor at h
  split at h
  · next hc =>
    unfold currentId at h
    split at h
    · cases h
      exact ⟨fun _ => hc, fun _ => rfl⟩
    · cases h
  · next hc =>
    cases h
    exact ⟨nofun, fun h => absurd h hc⟩

theorem currentId_eq_ok {id : ThreadId} : k.currentId = .ok id ↔ k.current = some id := by
  unfold currentId
  split
  · next h => simp [h]
  · next h => simp [h]

/-- An attempt to lock is made by the running thread with a legal count. -/
theorem attemptLock_eq_ok {m : Mutex} {attempt : LockAttempt} (h : k.attemptLock id count = .ok (m, attempt)) :
    ∃ thread, k.objects.get? id = some (.mutex m) ∧ m.checkCount count = .ok () ∧
      k.current = some thread ∧ m.tryLock thread count = .ok attempt := by
  unfold attemptLock at h
  split at h
  · cases h
  · next m' hm =>
    split at h
    · cases h
    · next hcheck =>
      split at h
      · cases h
      · next thread hc =>
        cases hl : m'.tryLock thread count with
        | error e =>
          rw [hl] at h
          cases h
        | ok attempt' =>
          rw [hl] at h
          cases h
          exact ⟨thread, ObjectTable.mutex?_eq_some.mp hm, hcheck, currentId_eq_ok.mp hc, hl⟩

theorem admitEventRequest_eq_ok {r : EventRequest} {f : EventFlag} (h : k.admitEventRequest id r = .ok f) :
    k.objects.get? id = some (.eventFlag f) ∧ r.check = .ok () ∧ f.isTaken = false := by
  unfold admitEventRequest at h
  split at h
  · cases h
  · next f' hf =>
    split at h
    · cases h
    · next hcheck =>
      split at h
      · cases h
      · next ht =>
        cases h
        exact ⟨ObjectTable.eventFlag?_eq_some.mp hf, hcheck, by simpa using ht⟩

theorem Quiet.writeStatus (k : Kernel) (address : UInt32) (name : String) (words : List UInt32) :
    Quiet k (k.writeStatus address name words).kernel :=
  Quiet.withMemory k _

end Kernel

/-- From `k`, without threads in transit, moves lead to the kernel of a reply; after a success nobody is in transit. -/
def Drains (A : Label → Prop) (k : Kernel) (r : Reply Unit) : Prop :=
  ∃ L, Moves A ⟨k, []⟩ ⟨r.kernel, L⟩ ∧ (r.result = .ok () → L = [])

namespace Moves

variable {A : Label → Prop} {k k' : Kernel} {id : ObjectId} {L : List ThreadId} {o : Object}

variable (hA : ∀ l, l.IsPlain → A l)

include hA

/-- The threads on an object are let go with a result, after their number has been written. -/
theorem drain (m : Except Fault Memory) {waiting : List ThreadId} (result : Int32) (h : Moves A ⟨k', []⟩ ⟨k, waiting⟩) :
    Drains A k' ((k.withMemory m).andThen fun _ k => (k.wakeAll waiting result).done ()) := by
  have hq := quiet (L := waiting) hA (Kernel.Quiet.withMemory k m)
  obtain ⟨e, -, hr, he⟩ | ⟨u, -, hr⟩ := Reply.kernel_andThen (k.withMemory m) fun _ k =>
    ((k.wakeAll waiting result).done () : Reply Unit)
  · refine ⟨waiting, hr ▸ h.trans hq, fun hok => ?_⟩
    rw [he] at hok
    cases hok
  · have hw := wakeAll (k := (k.withMemory m).kernel) (L := []) hA waiting result
    rw [List.append_nil] at hw
    exact ⟨[], hr ▸ (h.trans hq).trans hw, fun _ => rfl⟩

omit hA in
theorem drains_of_moves {r : Reply Unit} (h : Moves A ⟨k, []⟩ ⟨r.kernel, []⟩) : Drains A k r :=
  ⟨[], h, fun _ => rfl⟩

/-- An object goes, and those that wait on it are woken. -/
theorem unregister (hid : ∀ l, l.Erases o.kind id → A l)
    (ho : k.objects.get? id = some o) (hkind : o.kind ≠ .thread) (result : Int32) :
    Moves A ⟨k, []⟩ ⟨((k.unregister o.kind id).andThen fun _ k =>
      ((k.wakeAll o.waiting result).done () : Reply Unit)).kernel, []⟩ := by
  have hoid := ObjectTable.id_of_get? ho
  have hun : k.unregister o.kind id =
      ({ k.note (.unregistered o.kind id) with objects := k.objects.erase id }).done () := by
    unfold Kernel.unregister
    rw [ObjectTable.find?_eq_some.mpr ⟨ho, rfl⟩]
  rw [hun]
  subst hoid
  have herase : Move (.erase o) ⟨k.note (.unregistered o.kind o.id), []⟩ _ := .erase ho hkind
  refine (note hA rfl).trans ((single (hid (.erase o) ⟨rfl, rfl⟩) herase).trans ?_)
  have hw := wakeAll (k := { k.note (.unregistered o.kind o.id) with objects := k.objects.erase o.id })
    (L := []) hA o.waiting result
  rwa [List.append_nil] at hw

/-! ### Semaphores -/

theorem createSemaphore (hcreate : ∀ o, o.id = k.nextId → o.kind = .semaphore → A (.create o))
    (name : String) (attributes : UInt32) (initialCount maxCount : Int32) :
    Moves A ⟨k, L⟩ ⟨(k.createSemaphore name attributes initialCount maxCount).kernel, L⟩ := by
  unfold Kernel.createSemaphore
  split
  · exact .refl _
  · next h =>
    rw [not_or, not_or, Int32.not_lt, Int32.not_lt] at h
    exact registerNew hA (hcreate _ rfl rfl) rfl ⟨rfl, h.2.1, h.2.2, rfl⟩

theorem deleteSemaphore (hid : ∀ l, l.Erases .semaphore id → A l) :
    Moves A ⟨k, []⟩ ⟨(k.deleteSemaphore id).kernel, []⟩ := by
  unfold Kernel.deleteSemaphore
  split
  · exact .refl _
  · next s hs =>
    exact unregister (o := .semaphore s) hA hid (ObjectTable.semaphore?_eq_some.mp hs) nofun _

theorem signalSemaphore (hid : ∀ l, l.Changes .semaphore id → A l) (amount : Int32) :
    Moves A ⟨k, []⟩ ⟨(k.signalSemaphore id amount).kernel, []⟩ := by
  unfold Kernel.signalSemaphore
  split
  · exact .refl _
  · next s hs =>
    obtain ⟨rfl, hget⟩ := ObjectTable.keyed_semaphore? hs
    split
    · exact .refl _
    · next hamount =>
      split
      · exact .refl _
      · next hover =>
        have hchange := change (o := .semaphore s) hid hget
          (.release (Int32.not_lt.mp hamount) (by simpa using hover))
        have hw := wakeAll (k := k.put (.semaphore (s.release amount).1)) (L := []) hA (s.release amount).2 0
        rw [List.append_nil] at hw
        exact hchange.trans hw

theorem waitSemaphore (hid : ∀ l, l.Changes .semaphore id → A l) (need : Int32)
    (timeoutAddress : UInt32) (callbacks : Bool) :
    Blocks A k (k.waitSemaphore id need timeoutAddress callbacks).kernel := by
  unfold Kernel.waitSemaphore
  split
  · exact .refl A k
  · next s hs =>
    obtain ⟨rfl, hget⟩ := ObjectTable.keyed_semaphore? hs
    split
    · exact .refl A k
    · next hneed =>
      rw [not_or, Int32.not_le, Int32.not_lt] at hneed
      split
      · next s' hs' => exact .through (change (o := .semaphore s) hid hget (.acquire hneed.1 hs'))
      · next hnone =>
        refine block (o := .semaphore s) hA (fun _ _ => hid (.enqueue _ _) ⟨rfl, rfl⟩) hget nofun ?_
        intro thread priority timeout since _
        exact .semaphore rfl rfl rfl hneed.1 hneed.2 hnone

omit hA in
theorem pollSemaphore (hid : ∀ l, l.Changes .semaphore id → A l) (need : Int32) :
    Moves A ⟨k, []⟩ ⟨(k.pollSemaphore id need).kernel, []⟩ := by
  unfold Kernel.pollSemaphore
  split
  · exact .refl _
  · next s hs =>
    obtain ⟨rfl, hget⟩ := ObjectTable.keyed_semaphore? hs
    split
    · exact .refl _
    · next hneed =>
      split
      · next s' hs' =>
        exact change (o := .semaphore s) hid hget (.acquire (Int32.not_le.mp hneed) hs')
      · exact .refl _

theorem cancelSemaphore (hid : ∀ l, l.Changes .semaphore id → A l) (count : Int32)
    (waitingAddress : UInt32) : Drains A k (k.cancelSemaphore id count waitingAddress) := by
  unfold Kernel.cancelSemaphore
  split
  · exact drains_of_moves (.refl _)
  · next s hs =>
    obtain ⟨rfl, hget⟩ := ObjectTable.keyed_semaphore? hs
    split
    · exact drains_of_moves (.refl _)
    · next hcount =>
      exact drain hA _ _ (change (o := .semaphore s) hid hget (.resetSemaphore (Int32.not_lt.mp hcount)))

theorem referSemaphore (address : UInt32) : Moves A ⟨k, L⟩ ⟨(k.referSemaphore id address).kernel, L⟩ := by
  unfold Kernel.referSemaphore
  split
  · exact .refl _
  · exact quiet hA (Kernel.Quiet.writeStatus k _ _ _)

/-! ### Event flags -/

theorem createEventFlag (hcreate : ∀ o, o.id = k.nextId → o.kind = .eventFlag → A (.create o))
    (name : String) (attributes initialPattern : UInt32) :
    Moves A ⟨k, L⟩ ⟨(k.createEventFlag name attributes initialPattern).kernel, L⟩ :=
  registerNew hA (hcreate _ rfl rfl) rfl rfl

theorem deleteEventFlag (hid : ∀ l, l.Erases .eventFlag id → A l) :
    Moves A ⟨k, []⟩ ⟨(k.deleteEventFlag id).kernel, []⟩ := by
  unfold Kernel.deleteEventFlag
  split
  · exact .refl _
  · next f hf =>
    exact unregister (o := .eventFlag f) hA hid (ObjectTable.eventFlag?_eq_some.mp hf) nofun _

/-- The waiters that an event flag let go are told the pattern they saw, each before it is woken. -/
theorem grantEvents (flag : ObjectId) (grants : List EventGrant) :
    Moves A ⟨k, grants.map (·.thread)⟩ ⟨grants.foldl (fun k g => k.grantEvent flag g) k, []⟩ := by
  induction grants generalizing k with
  | nil => exact .refl _
  | cons g rest ih =>
    have hgrant : Moves A ⟨k, (g :: rest).map (·.thread)⟩ ⟨k.grantEvent flag g, rest.map (·.thread)⟩ := by
      unfold Kernel.grantEvent
      refine (quiet hA ?_).trans (routine hA .wake trivial)
      split
      · exact Kernel.Quiet.memory k _
      · exact (Kernel.Quiet.note k rfl).trans (Kernel.Quiet.note _ rfl)
    exact hgrant.trans ih

theorem setEventFlag (hid : ∀ l, l.Changes .eventFlag id → A l) (bits : UInt32) :
    Moves A ⟨k, []⟩ ⟨(k.setEventFlag id bits).kernel, []⟩ := by
  unfold Kernel.setEventFlag
  split
  · exact .refl _
  · next f hf =>
    obtain ⟨rfl, hget⟩ := ObjectTable.keyed_eventFlag? hf
    have hchange := change (o := .eventFlag f) hid hget (.raise f bits)
    exact hchange.trans (grantEvents hA f.id (f.raise bits).2)

omit hA in
theorem clearEventFlag (hid : ∀ l, l.Changes .eventFlag id → A l) (bits : UInt32) :
    Moves A ⟨k, []⟩ ⟨(k.clearEventFlag id bits).kernel, []⟩ := by
  unfold Kernel.clearEventFlag
  split
  · exact .refl _
  · next f hf =>
    obtain ⟨rfl, hget⟩ := ObjectTable.keyed_eventFlag? hf
    exact change (o := .eventFlag f) hid hget (.keep f bits)

theorem waitEventFlag (hid : ∀ l, l.Changes .eventFlag id → A l) (r : EventRequest)
    (timeoutAddress : UInt32) (callbacks : Bool) :
    Blocks A k (k.waitEventFlag id r timeoutAddress callbacks).kernel := by
  unfold Kernel.waitEventFlag
  split
  · exact .refl A k
  · next f hf =>
    obtain ⟨hget, hcheck, htaken⟩ := Kernel.admitEventRequest_eq_ok hf
    have hfid : f.id = id := ObjectTable.id_of_get? hget
    subst hfid
    split
    · next hm =>
      exact .through ((change (o := .eventFlag f) hid hget (.consume hcheck htaken hm)).trans
        (quiet hA (Kernel.Quiet.withMemory _ _)))
    · next hm =>
      refine block (o := .eventFlag f) hA (fun _ _ => hid (.enqueue _ _) ⟨rfl, rfl⟩) hget nofun ?_
      intro thread priority timeout since _
      exact .eventFlag rfl rfl rfl rfl rfl hcheck htaken (by simpa using hm)

/-- The pattern is stored before it is reported. -/
theorem pollEventFlag (hid : ∀ l, l.Changes .eventFlag id → A l) (r : EventRequest) :
    Moves A ⟨k, []⟩ ⟨(k.pollEventFlag id r).kernel, []⟩ := by
  unfold Kernel.pollEventFlag
  split
  · exact .refl _
  · next f hf =>
    obtain ⟨hget, hcheck, htaken⟩ := Kernel.admitEventRequest_eq_ok hf
    have hfid : f.id = id := ObjectTable.id_of_get? hget
    subst hfid
    have hwrite : ∀ k₁ : Kernel, Moves A ⟨k₁, []⟩
        ⟨((k₁.withMemory (k₁.memory.writeOptional r.outAddress f.pattern)).andThen fun _ k =>
          if r.matched f.pattern then k.done () else k.refuse .eventFlagCondition).kernel, []⟩ := by
      intro k₁
      have hq := quiet (L := []) hA (Kernel.Quiet.withMemory k₁ (k₁.memory.writeOptional r.outAddress f.pattern))
      obtain ⟨e, -, h, -⟩ | ⟨u, -, h⟩ := Reply.kernel_andThen
        (k₁.withMemory (k₁.memory.writeOptional r.outAddress f.pattern)) fun _ k =>
          if r.matched f.pattern then k.done () else k.refuse .eventFlagCondition
      · rw [h]
        exact hq
      · rw [h]
        split <;> exact hq
    dsimp only
    refine Moves.trans ?_ (hwrite _)
    split
    · next hm => exact change (o := .eventFlag f) hid hget (.consume hcheck htaken hm)
    · exact .refl _

theorem cancelEventFlag (hid : ∀ l, l.Changes .eventFlag id → A l)
    (pattern waitingAddress : UInt32) : Drains A k (k.cancelEventFlag id pattern waitingAddress) := by
  unfold Kernel.cancelEventFlag
  split
  · exact drains_of_moves (.refl _)
  · next f hf =>
    obtain ⟨rfl, hget⟩ := ObjectTable.keyed_eventFlag? hf
    exact drain hA _ _ (change (o := .eventFlag f) hid hget (.resetFlag f pattern))

theorem referEventFlag (address : UInt32) : Moves A ⟨k, L⟩ ⟨(k.referEventFlag id address).kernel, L⟩ := by
  unfold Kernel.referEventFlag
  split
  · exact .refl _
  · exact quiet hA (Kernel.Quiet.writeStatus k _ _ _)

/-! ### Mutexes -/

theorem createMutex (hcreate : ∀ o, o.id = k.nextId → o.kind = .mutex → A (.create o))
    (name : String) (attributes : UInt32) (initialCount : Int32) :
    Moves A ⟨k, L⟩ ⟨(k.createMutex name attributes initialCount).kernel, L⟩ := by
  unfold Kernel.createMutex
  split
  · exact .refl _
  · next h =>
    rw [not_or, Int32.not_lt] at h
    split
    · exact .refl _
    · next owner howner =>
      have hsome := Kernel.isSome_ownerFor howner
      refine registerNew hA (hcreate _ rfl rfl) rfl ⟨rfl, h.1, ?_, fun hc => by_contra fun hr => h.2 ⟨hc, hr⟩⟩
      constructor
      · rintro rfl
        exact Int32.le_antisymm (Int32.not_lt.mp fun hc => nomatch hsome.mpr hc) h.1
      · intro hc
        exact Option.not_isSome_iff_eq_none.mp fun hs => Int32.lt_irrefl (hc ▸ hsome.mp hs)

theorem deleteMutex (hid : ∀ l, l.Erases .mutex id → A l) : Moves A ⟨k, []⟩ ⟨(k.deleteMutex id).kernel, []⟩ := by
  unfold Kernel.deleteMutex
  split
  · exact .refl _
  · next m hm =>
    exact unregister (o := .mutex m) hA hid (ObjectTable.mutex?_eq_some.mp hm) nofun _

theorem lockMutex (hid : ∀ l, l.Changes .mutex id → A l) (count : Int32) (timeoutAddress : UInt32) (callbacks : Bool) :
    Blocks A k (k.lockMutex id count timeoutAddress callbacks).kernel := by
  unfold Kernel.lockMutex
  split
  · exact .refl A k
  · next m m' hattempt =>
    obtain ⟨thread, hget, hcheck, -, hl⟩ := Kernel.attemptLock_eq_ok hattempt
    have hmid : m.id = id := ObjectTable.id_of_get? hget
    subst hmid
    exact .through (change (o := .mutex m) hid hget (.lock hcheck hl))
  · next m hattempt =>
    obtain ⟨thread, hget, hcheck, hc, hl⟩ := Kernel.attemptLock_eq_ok hattempt
    have hmid : m.id = id := ObjectTable.id_of_get? hget
    subst hmid
    obtain ⟨owner, howner, hne⟩ := Mutex.tryLock_contended hl
    refine block (o := .mutex m) hA (fun _ _ => hid (.enqueue _ _) ⟨rfl, rfl⟩) hget nofun ?_
    intro thread' priority timeout since hc'
    rw [hc, Option.some.injEq] at hc'
    exact .mutex rfl rfl rfl hcheck howner (hc' ▸ hne)

omit hA in
theorem tryLockMutex (hid : ∀ l, l.Changes .mutex id → A l) (count : Int32) :
    Moves A ⟨k, []⟩ ⟨(k.tryLockMutex id count).kernel, []⟩ := by
  unfold Kernel.tryLockMutex
  split
  · exact .refl _
  · next m m' hattempt =>
    obtain ⟨thread, hget, hcheck, -, hl⟩ := Kernel.attemptLock_eq_ok hattempt
    have hmid : m.id = id := ObjectTable.id_of_get? hget
    subst hmid
    exact change (o := .mutex m) hid hget (.lock hcheck hl)
  · exact .refl _

/-- The last unlock hands the mutex over and wakes its new owner. -/
theorem unlockMutex (hid : ∀ l, l.Changes .mutex id → A l) (count : Int32) :
    Moves A ⟨k, []⟩ ⟨(k.unlockMutex id count).kernel, []⟩ := by
  unfold Kernel.unlockMutex
  split
  · exact .refl _
  · next m hm =>
    obtain ⟨rfl, hget⟩ := ObjectTable.keyed_mutex? hm
    split
    · exact .refl _
    · next hcount =>
      have hpos := Int32.not_le.mp hcount
      split
      · exact .refl _
      · split
        · exact .refl _
        · next m' hu => exact change (o := .mutex m) hid hget (.unlock hpos hu)
        · next m' owner hu =>
          have hchange := change (o := .mutex m) hid hget (.unlock hpos hu)
          exact hchange.trans
            ((note hA (e := .mutexHanded m.id owner) rfl).trans (routine hA .wake trivial))

theorem cancelMutex (hid : ∀ l, l.Changes .mutex id → A l) (count : Int32)
    (waitingAddress : UInt32) : Drains A k (k.cancelMutex id count waitingAddress) := by
  unfold Kernel.cancelMutex
  split
  · exact drains_of_moves (.refl _)
  · next m hm =>
    obtain ⟨rfl, hget⟩ := ObjectTable.keyed_mutex? hm
    split
    · exact drains_of_moves (.refl _)
    · next hcount =>
      split
      · exact drains_of_moves (.refl _)
      · next owner howner =>
        have hrecursive : 1 < count → m.isRecursive = true := fun hc => by_contra fun hr => hcount ⟨hc, hr⟩
        exact drain hA _ _ (change (o := .mutex m) hid hget
          (.resetMutex hrecursive (Kernel.isSome_ownerFor howner)))

theorem referMutex (address : UInt32) : Moves A ⟨k, L⟩ ⟨(k.referMutex id address).kernel, L⟩ := by
  unfold Kernel.referMutex
  split
  · exact .refl _
  · exact quiet hA (Kernel.Quiet.writeStatus k _ _ _)

/-! ### Blocks of partitions -/

theorem allocateMemory (hR : A .reserve)
    (hcreate : ∀ o, o.id = k.nextId → o.kind = .partitionMemory → A (.create o)) (partition : PartitionId)
    (name : String) (kind size address : UInt32) :
    Moves A ⟨k, L⟩ ⟨(k.allocateMemory partition name kind size address).kernel, L⟩ := by
  unfold Kernel.allocateMemory
  split
  · exact .refl _
  · next placement _ =>
    split
    · exact .refl _
    · have hs := Kernel.sameObjects_allocateBlock k partition name placement
        (Kernel.alignmentOf placement) size
      have hx := Kernel.contexts_allocateBlock k partition name placement (Kernel.alignmentOf placement) size
      obtain ⟨e, -, h, -⟩ | ⟨block, -, h⟩ := Reply.kernel_andThen
        (k.allocateBlock partition name placement (Kernel.alignmentOf placement) size) _ <;> rw [h]
      · exact reserve hR hs hx
      · exact (reserve hR hs hx).trans ((note hA rfl).trans (registerNew hA (hcreate _ hs.nextId rfl) rfl trivial))

/-- An object nobody waits on goes together with the block it holds. -/
theorem freeAndUnregister (hR : A .reserve)
    (hid : ∀ l, l.Erases o.kind id → A l) (ho : k.objects.get? id = some o) (hkind : o.kind ≠ .thread) (hw : o.waiting = [])
    (partition : PartitionId) (block : Block) :
    Moves A ⟨k, []⟩ ⟨((k.freeBlock partition block).andThen fun _ k => k.unregister o.kind id).kernel, []⟩ := by
  have hs := Kernel.sameObjects_freeBlock k partition block
  have hx := Kernel.contexts_freeBlock k partition block
  obtain ⟨e, -, h, -⟩ | ⟨u, -, h⟩ := Reply.kernel_andThen (k.freeBlock partition block)
    fun _ k => k.unregister o.kind id
  · rw [h]
    exact reserve hR hs hx
  · rw [h]
    have ho₁ : (k.freeBlock partition block).kernel.objects.get? id = some o := by rw [hs.objects, ho]
    have hun := unregister hA hid ho₁ hkind 0
    rw [hw] at hun
    refine (reserve hR hs hx).trans ?_
    obtain ⟨e, -, h', -⟩ | ⟨u, -, h'⟩ := Reply.kernel_andThen
      ((k.freeBlock partition block).kernel.unregister o.kind id) fun _ k =>
        ((k.wakeAll [] 0).done () : Reply Unit) <;> rw [h'] at hun <;> exact hun

theorem freeMemory (hR : A .reserve)
    (hid : ∀ l, l.Erases .partitionMemory id → A l) : Moves A ⟨k, []⟩ ⟨(k.freeMemory id).kernel, []⟩ := by
  unfold Kernel.freeMemory
  split
  · exact .refl _
  · next b hb =>
    exact freeAndUnregister (o := .partitionMemory b) hA hR hid (ObjectTable.partitionMemory?_eq_some.mp hb)
      nofun rfl _ _

end Moves
end GuestKernel
