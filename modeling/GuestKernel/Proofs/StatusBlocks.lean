/-
# What status blocks tell

A guest that asks for the status of a semaphore, event flag, mutex or message pipe gets a block of its memory written:
the size of the block, 32 bytes for the name, and words that depend on the kind of object. The words are narrower than
what they tell, and nothing is lost on the way.

| told | why it can be read back |
| --- | --- |
| a count | a signed number keeps its bits |
| an owner, or that there is none | no thread has the id that stands for none (`ownersBelow_run`) |
| how many threads wait | they are different threads, and fewer than there are ids (`length_waiting_lt`) |
| the free bytes of a pipe | with the bytes in it they make up its capacity (`Object.Fits`) |

So a block that is read from memory decodes to what the object is (`ObjectStatus.Of`), and nothing else has changed; a
call that fails has not written a part of the block.

Source: specification, 4.7.
-/

import GuestKernel.Proofs.MemoryRanges
import GuestKernel.Proofs.MutexOwnership
import GuestKernel.Proofs.PipeStream
import GuestKernel.Proofs.ThreadContexts

namespace GuestKernel

/-! ### Owners and waiters -/

namespace Kernel

variable {k : Kernel} {o : Operation} {x : ObjectId} {t : ThreadId} {count : Int32} {m m' : Mutex}

/-- An object that is new after an operation is of the kind that the operation makes. -/
theorem creates_of_after (hn : k.started.Nodup) (hnone : k.objects.get? x = none) {o' : Object}
    (h : (k.after o).objects.get? x = some o') (hk : o'.kind ≠ .thread) : o.creates? = some o'.kind := by
  refine object_after hn h hk (R := fun _ => o.creates? = some o'.kind) (fun o₁ ho₁ _ => ?_)
    (fun _ _ hkind _ hcreates => hkind ▸ hcreates) fun _ _ _ _ _ _ _ h => h
  cases hnone.symm.trans ho₁

theorem current_of_ownerFor {owner : Option ThreadId} (h : k.ownerFor count = .ok owner)
    (ht : owner = some t) : k.current = some t := by
  subst ht
  unfold ownerFor currentId at h
  split at h
  · split at h
    · next hc =>
      cases h
      exact hc
    · cases h
  · cases h

/-- A mutex that is created belongs to the caller, if to anybody. -/
theorem current_of_createMutex {name : String} {attributes : UInt32}
    (hnone : k.objects.get? x = none) (hm : (k.createMutex name attributes count).kernel.objects.mutex? x = some m)
    (ht : m.owner = some t) : k.current = some t := by
  have hget := ObjectTable.mutex?_eq_some.mp hm
  unfold createMutex at hget
  split at hget
  · cases hnone.symm.trans hget
  split at hget
  · cases hnone.symm.trans hget
  · next owner howner =>
    have hput : (k.objects.skipId.put (.mutex (.new k.nextId name attributes count owner))).get? x = some (.mutex m) :=
      hget
    rw [ObjectTable.get?_put] at hput
    split at hput
    · cases hput
      exact current_of_ownerFor howner ht
    · cases hnone.symm.trans hput

/-- A mutex whose waits are cancelled belongs to the caller, if to anybody else than before. -/
theorem current_of_cancelMutex {waitingAddress : UInt32}
    (hm' : (k.cancelMutex x count waitingAddress).kernel.objects.mutex? x = some m') (ht : m'.owner = some t) :
    k.current = some t ∨ ∃ m, k.objects.mutex? x = some m ∧ m.owner = some t := by
  unfold cancelMutex at hm'
  split at hm'
  · exact Or.inr ⟨m', hm', ht⟩
  next m hm =>
  split at hm'
  · exact Or.inr ⟨m', hm', ht⟩
  split at hm'
  · exact Or.inr ⟨m', hm', ht⟩
  · next owner howner =>
    have hid : (m.reset owner count).id = x := ObjectTable.id_of_get? (ObjectTable.mutex?_eq_some.mp hm)
    have hreset : m' = m.reset owner count := by
      refine eq_of_put (k := k) hid ?_ hm'
      obtain ⟨e, -, heq, -⟩ | ⟨a, -, heq⟩ := Reply.kernel_andThen ((k.put (.mutex (m.reset owner count))).withMemory
          ((k.put (.mutex (m.reset owner count))).memory.writeOptional waitingAddress
            (UInt32.ofNat m.waiters.threads.length)))
          fun _ k => (k.wakeAll m.waiters.threads KernelError.waitCancelled.code).done () <;> rw [heq]
      · exact (Quiet.withMemory ..).onlyThreads
      · exact (Quiet.withMemory ..).onlyThreads.trans (onlyThreads_wakeAll ..)
    subst hreset
    exact Or.inl (current_of_ownerFor howner ht)

/-- **Only threads come to own mutexes**: whoever owns one after an operation owned it before, or is a thread then. -/
theorem registered_or_owned (h : k.Orderly) (hn : k.started.Nodup)
    (hm' : (k.after o).objects.mutex? x = some m') (ht : m'.owner = some t) :
    (∃ thread, k.thread? t = some thread) ∨ ∃ m, k.objects.mutex? x = some m ∧ m.owner = some t := by
  have hcurrent : k.current = some t → ∃ thread, k.thread? t = some thread := by
    intro hc
    obtain ⟨thread, hthread, -⟩ := h.coherent.1.current t hc
    exact ⟨thread, hthread⟩
  cases hm : k.objects.mutex? x with
  | none =>
    -- The mutex is new, so the operation is the call that creates it.
    have hget' := ObjectTable.mutex?_eq_some.mp hm'
    have hnone : k.objects.get? x = none := by
      by_contra hsome
      obtain ⟨o₁, ho₁⟩ := Option.ne_none_iff_exists'.mp hsome
      have hx : x ≠ k.nextId := by
        rintro rfl
        cases h.coherent.2.fresh.symm.trans ho₁
      obtain ⟨o₂, ho₂, hkind⟩ := kind_of_after hn hx hget' (by simp [Object.kind])
      cases o₂ with
      | mutex m => cases hm.symm.trans (ObjectTable.mutex?_eq_some.mpr ho₂)
      | _ => cases hkind
    have hcreates := creates_of_after hn hnone hget' (by simp [Object.kind])
    cases o with
    | syscall call =>
      cases call with
      | createMutex name attributes count => exact Or.inl (hcurrent (current_of_createMutex hnone hm' ht))
      | _ => cases hcreates
    | _ => cases hcreates
  | some m =>
    cases hcancel : o.cancelsMutex x with
    | true =>
      cases o with
      | syscall call =>
        cases call with
        | cancelMutex y count waitingAddress =>
          obtain rfl : y = x := of_decide_eq_true hcancel
          obtain hc | howned := current_of_cancelMutex hm' ht
          · exact Or.inl (hcurrent hc)
          · exact Or.inr (hm ▸ howned)
        | _ => cases hcancel
      | _ => cases hcancel
    | false =>
      cases turn_after h hn hcancel hm hm' with
      | stay _ howner => exact Or.inr ⟨m, rfl, howner ▸ ht⟩
      | take hcall _ howner => exact Or.inl (hcurrent (hcall.current.trans (howner.symm.trans ht)))
      | relock hcall _ _ howner => exact Or.inl (hcurrent (hcall.current.trans (howner.symm.trans ht)))
      | drop hcall _ howner => exact Or.inl (hcurrent (hcall.current.trans (howner.symm.trans ht)))
      | free _ _ _ howner => cases howner.symm.trans ht
      | hand _ _ hfirst _ howner =>
        obtain rfl := Option.some.inj (howner.symm.trans ht)
        have hmem := List.mem_map_of_mem (f := Waiter.thread) (List.mem_of_head? hfirst)
        obtain ⟨thread, -, hthread, -⟩ := h.placed.waits (ObjectTable.mutex?_eq_some.mp hm) hmem
        exact Or.inl ⟨thread, hthread⟩

/-- The owners of mutexes have ids that were handed out, also if they are gone. -/
def OwnersBelow (k : Kernel) : Prop :=
  ∀ x m t, k.objects.mutex? x = some m → m.owner = some t → t.toNat < k.nextId.toNat

/-- Only the running thread becomes an owner, or one that waits. -/
theorem OwnersBelow.after (h : k.OwnersBelow) (horderly : k.Orderly) (hn : k.started.Nodup)
    (hbound : k.SparesLastId o) : (k.after o).OwnersBelow := by
  intro x m' t hm' ht
  have hbefore : t.toNat < k.nextId.toNat := by
    obtain ⟨thread, hthread⟩ | ⟨m, hm, howner⟩ := registered_or_owned horderly hn hm' ht
    · exact horderly.coherent.2.thread_lt hthread
    · exact h x m t hm howner
  obtain hsame | hnext := (moves_after k o hn).1
  · rwa [hsame]
  · by_cases heq : (k.after o).nextId = k.nextId
    · rwa [heq]
    · have hroom := hbound heq
      rw [hnext, UInt32.toNat_add, UInt32.toNat_one]
      omega

theorem ownersBelow_run (config : KernelConfig) (memory : Memory) (operations : List Operation)
    (hids : (Kernel.new config memory).handedOut operations < 2 ^ 32 - 1) :
    ((Kernel.new config memory).run operations).OwnersBelow := by
  refine (reachable_keeps (P := fun k => k.Orderly ∧ k.OwnersBelow) hids
    ⟨orderly_new config memory, fun x m t hm => ?_⟩
    fun k o _ hn hbound h => ⟨h.1.after hn hbound, h.2.after h.1 hn hbound⟩).2.2
  cases (get?_new config memory x).symm.trans (ObjectTable.mutex?_eq_some.mp hm)

/-- The word that stands for no owner is no id of one. -/
theorem OwnersBelow.owner_ne (h : k.OwnersBelow) (hm : k.objects.mutex? x = some m)
    (ht : m.owner = some t) : t ≠ 0xFFFFFFFF := by
  rintro rfl
  have hlt := h x m _ hm ht
  have hroom := UInt32.toNat_lt k.nextId
  rw [show (0xFFFFFFFF : UInt32).toNat = 2 ^ 32 - 1 from rfl] at hlt
  omega

/-- **A word is wide enough for the length of a queue.** -/
theorem length_waiting_lt (h : k.Orderly) {o : Object} (ho : k.objects.get? x = some o) : o.waiting.length < 2 ^ 32 := by
  have hlt : ∀ id ∈ o.waiting, 0 ≤ id.toNat ∧ id.toNat < k.nextId.toNat := by
    intro id hid
    obtain ⟨thread, -, hthread, -⟩ := h.placed.waits ho hid
    exact ⟨Nat.zero_le _, h.coherent.2.thread_lt hthread⟩
  have hle := length_le_of_nodup (h.placed.nodup_waiting ho) hlt
  have hroom := UInt32.toNat_lt k.nextId
  omega

end Kernel

/-! ### What the words mean -/

/-- What a status block tells about an object besides its name. -/
inductive ObjectStatus where
  | semaphore (attributes : UInt32) (initialCount count maxCount : Int32) (waiters : Nat)
  | eventFlag (attributes initialPattern pattern : UInt32) (waiters : Nat)
  | mutex (attributes : UInt32) (initialCount lockCount : Int32) (owner : Option ThreadId) (waiters : Nat)
  | messagePipe (attributes : UInt32) (capacity free senders receivers : Nat)
deriving DecidableEq

namespace ObjectStatus

/-- The status that a guest reads out of the words of a block. -/
def ofWords : ObjectKind → List UInt32 → Option ObjectStatus
  | .semaphore, [attributes, initialCount, count, maxCount, waiters] =>
    some (.semaphore attributes initialCount.toInt32 count.toInt32 maxCount.toInt32 waiters.toNat)
  | .eventFlag, [attributes, initialPattern, pattern, waiters] =>
    some (.eventFlag attributes initialPattern pattern waiters.toNat)
  | .mutex, [attributes, initialCount, lockCount, owner, waiters] =>
    some (.mutex attributes initialCount.toInt32 lockCount.toInt32 (if owner = 0xFFFFFFFF then none else some owner)
      waiters.toNat)
  | .messagePipe, [attributes, capacity, free, senders, receivers] =>
    some (.messagePipe attributes capacity.toNat free.toNat senders.toNat receivers.toNat)
  | _, _ => none

/-- The status of an object. -/
inductive Of : Object → ObjectStatus → Prop where
  | semaphore (s : Semaphore) :
      Of (.semaphore s) (.semaphore s.attributes s.initialCount s.count s.maxCount s.waiters.length)
  | eventFlag (f : EventFlag) : Of (.eventFlag f) (.eventFlag f.attributes f.initialPattern f.pattern f.waiters.length)
  | mutex (m : Mutex) : Of (.mutex m) (.mutex m.attributes m.initialCount m.lockCount m.owner m.waiters.length)
  | messagePipe (p : MessagePipe) {free : Nat} (hfree : p.buffer.length + free = p.capacity.toNat) :
      Of (.messagePipe p)
        (.messagePipe p.attributes p.capacity.toNat free p.senders.length p.receivers.length)

end ObjectStatus

namespace Object

/-- The words of an object's status block, for the kinds that have one. -/
def statusWords? : Object → Option (List UInt32)
  | semaphore s => some s.statusWords
  | eventFlag f => some f.statusWords
  | mutex m => some m.statusWords
  | messagePipe p => some p.statusWords
  | _ => none

/-- **The words decode to the object**, if a word holds the lengths of its queues, its owner is not taken for none, and a
pipe holds what is in it. -/
theorem exists_status {o : Object} {words : List UInt32} (h : o.statusWords? = some words)
    (hwaiting : o.waiting.length < 2 ^ 32) (howner : ∀ m t, o = .mutex m → m.owner = some t → t ≠ 0xFFFFFFFF)
    (hfits : o.Fits) : ∃ status, ObjectStatus.ofWords o.kind words = some status ∧ status.Of o := by
  have hlength : ∀ {n : Nat}, n ≤ o.waiting.length → (UInt32.ofNat n).toNat = n :=
    fun hn => UInt32.toNat_ofNat_of_lt' (Nat.lt_of_le_of_lt hn hwaiting)
  cases o with
  | semaphore s =>
    obtain rfl := Option.some.inj h
    refine ⟨_, rfl, ?_⟩
    rw [hlength (Nat.le_of_eq (List.length_map ..).symm)]
    exact .semaphore s
  | eventFlag f =>
    obtain rfl := Option.some.inj h
    refine ⟨_, rfl, ?_⟩
    rw [hlength (Nat.le_of_eq (List.length_map ..).symm)]
    exact .eventFlag f
  | mutex m =>
    obtain rfl := Option.some.inj h
    refine ⟨_, rfl, ?_⟩
    have hdecoded : (if m.owner.getD Mutex.noOwner = 0xFFFFFFFF then none else some (m.owner.getD Mutex.noOwner)) =
        m.owner := by
      cases hm : m.owner with
      | none => exact if_pos rfl
      | some t => exact if_neg (howner m t rfl hm)
    rw [hlength (Nat.le_of_eq (List.length_map ..).symm), hdecoded]
    exact .mutex m
  | messagePipe p =>
    obtain rfl := Option.some.inj h
    refine ⟨_, rfl, ?_⟩
    have hboth : p.senders.length + p.receivers.length = (p.senders.threads ++ p.receivers.threads).length := by
      rw [List.length_append, WaitQueue.threads, WaitQueue.threads, List.length_map, List.length_map]
    have hroom : (UInt32.ofNat p.room).toNat = p.room :=
      UInt32.toNat_ofNat_of_lt' (Nat.lt_of_le_of_lt (Nat.sub_le ..) p.capacity.toNat_lt)
    rw [hroom, hlength (hboth ▸ Nat.le_add_right ..), hlength (hboth ▸ Nat.le_add_left ..)]
    exact .messagePipe p (Nat.add_sub_cancel' hfits)
  | _ => cases h

end Object

/-! ### Blocks in memory -/

/-- The field of a name: as much of it as fits with a closing zero, and zeros. -/
structure NameField (name : String) (field : List UInt8) : Prop where
  length : field.length = 32
  bytes : ∀ j < min 31 (Utf8.encode name).length, field[j]? = (Utf8.encode name)[j]?
  zeros : ∀ j, min 31 (Utf8.encode name).length ≤ j → j < 32 → field[j]? = some 0

/-- A status names the object as far as there is room. -/
theorem nameField_statusName (name : String) : NameField name (statusName name) where
  length := length_statusName name
  bytes j hj := by
    have hlt := Nat.lt_min.mp hj
    unfold statusName
    dsimp only
    rw [List.getElem?_append_left (by rwa [List.length_take])]
    exact List.getElem?_take_of_lt hlt.1
  zeros j hj hlt := by
    have htake : ((Utf8.encode name).take (statusNameLength - 1)).length = min 31 (Utf8.encode name).length :=
      List.length_take
    unfold statusName
    dsimp only
    rw [List.getElem?_append_right (by omega), List.getElem?_replicate, htake]
    exact if_pos (by unfold statusNameLength; omega)

theorem length_wordBytes (words : List UInt32) :
    (words.flatMap fun w => toBytes 4 w.toNat).length = 4 * words.length := by
  induction words with
  | nil => rfl
  | cons w rest ih =>
    rw [List.flatMap_cons, List.length_append, length_toBytes, ih, List.length_cons]
    omega

/-- The bytes of words around one of them. -/
theorem wordBytes_split {words : List UInt32} {i : Nat} {w : UInt32} (hw : words[i]? = some w) :
    (words.flatMap fun w => toBytes 4 w.toNat) = ((words.take i).flatMap fun w => toBytes 4 w.toNat) ++
      toBytes 4 w.toNat ++ (words.drop (i + 1)).flatMap fun w => toBytes 4 w.toNat := by
  obtain ⟨hi, rfl⟩ := List.getElem?_eq_some_iff.mp hw
  conv => lhs; rw [← List.take_append_drop i words, List.drop_eq_getElem_cons hi]
  rw [List.flatMap_append, List.flatMap_cons, List.append_assoc]

theorem length_statusBlock (name : String) (words : List UInt32) :
    (statusBlock name words).length = 36 + 4 * words.length := by
  unfold statusBlock
  rw [List.length_append, List.length_append, length_toBytes, length_statusName, length_wordBytes]
  rfl

namespace Memory

variable {m m' : Memory} {a : UInt32} {name : String} {words : List UInt32} {before behind : List UInt8}

/-- What a guest reads at the address of a status block. -/
structure Shows (m : Memory) (a : UInt32) (name : String) (words : List UInt32) : Prop where
  size : m.readWord a = .ok (UInt32.ofNat (36 + 4 * words.length))
  name : ∃ field, m.readBytes (a + 4) 32 = .ok field ∧ NameField name field
  words : ∀ i w, words[i]? = some w → m.readWord (a + UInt32.ofNat (36 + 4 * i)) = .ok w

/-- **A part of what was written is read back** at its own address. -/
theorem readBytes_part {before part behind : List UInt8} (h : m.writeBytes a (before ++ part ++ behind) = .ok m')
    (hpart : part ≠ []) : m'.readBytes (a + UInt32.ofNat before.length) part.length = .ok part := by
  have hsame := locate_of_writeBytes h (a + UInt32.ofNat before.length) part.length
  obtain ⟨place, hplace, rfl⟩ := writeBytes_eq_ok h
  obtain ⟨hmaps, hle⟩ := locate_eq_ok.mp hplace
  have hpos := List.length_pos_iff.mpr hpart
  rw [List.length_append, List.length_append] at hle
  have hlocate : m.locate (a + UInt32.ofNat before.length) part.length =
      .ok ⟨place.region, place.offset + before.length⟩ := by
    refine locate_eq_ok.mpr ⟨hmaps.add (by omega), ?_⟩
    show place.offset + before.length + part.length ≤ place.region.size.toNat
    omega
  have hstored := bytesAt_store m place (before ++ part ++ behind)
  rw [List.length_append, List.length_append, bytesAt_add, bytesAt_add] at hstored
  have hfront := List.append_inj_left hstored (by simp only [List.length_append, length_bytesAt])
  have hmiddle := List.append_inj_right hfront (length_bytesAt ..)
  unfold readBytes
  rw [hsame, hlocate]
  exact congrArg Except.ok hmiddle

/-- A word of a block that was written is read back. -/
theorem readWord_part {value : Nat} (h : m.writeBytes a (before ++ toBytes 4 value ++ behind) = .ok m') :
    m'.readWord (a + UInt32.ofNat before.length) = .ok (UInt32.ofNat value) := by
  have hread := readBytes_part h (List.ne_nil_of_length_pos (by rw [length_toBytes]; decide))
  rw [length_toBytes] at hread
  unfold readWord
  rw [hread]
  show Except.ok (UInt32.ofNat (ofBytes (toBytes 4 value))) = _
  rw [ofBytes_toBytes]
  exact congrArg Except.ok (UInt32.toNat_inj.mp (by simp))

/-- A status block that was written is what the guest reads. -/
theorem shows_of_writeBytes (h : m.writeBytes a (statusBlock name words) = .ok m') : m'.Shows a name words := by
  refine ⟨?_, ⟨statusName name, ?_, nameField_statusName name⟩, fun i w hw => ?_⟩
  · have hblock : statusBlock name words = [] ++ toBytes 4 (36 + 4 * words.length) ++
        (statusName name ++ words.flatMap fun w => toBytes 4 w.toNat) := by
      rw [List.nil_append, ← List.append_assoc, Nat.mul_comm]
      rfl
    have hread := readWord_part (hblock ▸ h)
    rwa [List.length_nil, show UInt32.ofNat 0 = 0 from rfl, UInt32.add_zero] at hread
  · have hread := readBytes_part h (List.ne_nil_of_length_pos (by rw [length_statusName]; decide))
    rwa [length_toBytes, length_statusName] at hread
  · have hblock : statusBlock name words = (toBytes 4 (4 + statusNameLength + words.length * 4) ++ statusName name ++
        (words.take i).flatMap fun w => toBytes 4 w.toNat) ++ toBytes 4 w.toNat ++
          (words.drop (i + 1)).flatMap fun w => toBytes 4 w.toNat := by
      unfold statusBlock
      rw [wordBytes_split hw]
      simp only [List.append_assoc]
    have hread := readWord_part (hblock ▸ h)
    have hi : i < words.length := (List.getElem?_eq_some_iff.mp hw).1
    rwa [List.length_append, List.length_append, length_toBytes, length_statusName, length_wordBytes, List.length_take,
      Nat.min_eq_left (Nat.le_of_lt hi), UInt32.ofNat_toNat] at hread

/-- Bytes that are not at one of the addresses of a write are as before it. -/
theorem cells_of_writeBytes {bytes : List UInt8} (h : m.writeBytes a bytes = .ok m') {place : Place}
    (hout : ∀ i < bytes.length, m.translate (a + UInt32.ofNat i) ≠ .ok place) :
    m'.cells place.region place.offset = m.cells place.region place.offset := by
  obtain ⟨first, hfirst, rfl⟩ := writeBytes_eq_ok h
  refine cells_store_of_ne m first fun i hi heq => hout i hi ?_
  rw [translate_add hfirst hi, heq]

end Memory

/-! ### Calls -/

namespace Syscall

/-- The kind and id of the object whose status a call asks for, and where it is to be written. -/
def refers? : Syscall → Option (ObjectKind × ObjectId × UInt32)
  | referSemaphore id address => some (.semaphore, id, address)
  | referEventFlag id address => some (.eventFlag, id, address)
  | referMutex id address => some (.mutex, id, address)
  | referPipe id address => some (.messagePipe, id, address)
  | _ => none

end Syscall

namespace Kernel

variable {k : Kernel} {call : Syscall} {kind : ObjectKind} {x : ObjectId} {address : UInt32}

/-- A call that looks for an object of one kind and writes the block of what it finds. -/
theorem refer_cases {α : Type} {view : Option α} {wrap : α → Object} {words : α → List UInt32} {reply : Reply Unit}
    (hview : ∀ {a}, view = some a ↔ k.objects.get? x = some (wrap a)) (hwrap : ∀ o, o.kind = kind → ∃ a, o = wrap a)
    (hwords : ∀ a, (wrap a).kind = kind ∧ (wrap a).statusWords? = some (words a))
    (hnone : view = none → reply = k.refuse (.unknown kind x))
    (hsome : ∀ a, view = some a → reply = k.writeStatus address (wrap a).name (words a)) :
    (k.objects.find? kind x = none ∧ reply.map (fun _ => Answer.done) = k.refuse (.unknown kind x)) ∨
      ∃ o words, k.objects.get? x = some o ∧ o.kind = kind ∧ o.statusWords? = some words ∧
        reply.map (fun _ => Answer.done) = (k.writeStatus address o.name words).map fun _ => .done := by
  cases hv : view with
  | some a => exact Or.inr ⟨wrap a, words a, hview.mp hv, (hwords a).1, (hwords a).2, by rw [hsome a hv]⟩
  | none =>
    refine Or.inl ⟨Option.eq_none_iff_forall_ne_some.mpr fun o ho => ?_, by rw [hnone hv]; rfl⟩
    obtain ⟨hget, hkind⟩ := ObjectTable.find?_eq_some.mp ho
    obtain ⟨a, rfl⟩ := hwrap o hkind
    cases hv.symm.trans (hview.mpr hget)

/-- A call that asks for the status of an object writes that object's block, or finds no such object. -/
theorem perform_refer (hcall : call.refers? = some (kind, x, address)) :
    (k.objects.find? kind x = none ∧ k.perform call = k.refuse (.unknown kind x)) ∨
      ∃ o words, k.objects.get? x = some o ∧ o.kind = kind ∧ o.statusWords? = some words ∧
        k.perform call = (k.writeStatus address o.name words).map fun _ => .done := by
  cases call with
  | referSemaphore =>
    cases hcall
    exact refer_cases ObjectTable.semaphore?_eq_some (fun o ho => by cases o <;> first | exact ⟨_, rfl⟩ | cases ho)
      (fun _ => ⟨rfl, rfl⟩) (fun hnone => by rw [referSemaphore, hnone]) fun s hsome => by
        rw [referSemaphore, hsome]
        rfl
  | referEventFlag =>
    cases hcall
    exact refer_cases ObjectTable.eventFlag?_eq_some (fun o ho => by cases o <;> first | exact ⟨_, rfl⟩ | cases ho)
      (fun _ => ⟨rfl, rfl⟩) (fun hnone => by rw [referEventFlag, hnone]) fun f hsome => by
        rw [referEventFlag, hsome]
        rfl
  | referMutex =>
    cases hcall
    exact refer_cases ObjectTable.mutex?_eq_some (fun o ho => by cases o <;> first | exact ⟨_, rfl⟩ | cases ho)
      (fun _ => ⟨rfl, rfl⟩) (fun hnone => by rw [referMutex, hnone]) fun m hsome => by
        rw [referMutex, hsome]
        rfl
  | referPipe =>
    cases hcall
    exact refer_cases ObjectTable.messagePipe?_eq_some (fun o ho => by cases o <;> first | exact ⟨_, rfl⟩ | cases ho)
      (fun _ => ⟨rfl, rfl⟩) (fun hnone => by rw [referPipe, hnone]) fun p hsome => by
        rw [referPipe, hsome]
        rfl
  | _ => cases hcall

/-- A kernel after the status of an object was told: one block of memory differs. -/
structure StatusWritten (k k' : Kernel) (address : UInt32) (name : String) (words : List UInt32) : Prop where
  only_memory : k' = { k with memory := k'.memory }
  block : k'.memory.Shows address name words
  outside : ∀ place : Place, (∀ i < 36 + 4 * words.length, k.memory.translate (address + UInt32.ofNat i) ≠ .ok place) →
    k'.memory.cells place.region place.offset = k.memory.cells place.region place.offset

/-- What becomes of a call that asks for the status of an object. -/
structure TellsStatus (k : Kernel) (call : Syscall) (kind : ObjectKind) (x : ObjectId) (address : UInt32) : Prop where
  /-- It succeeds exactly if the block is in range, and then the block decodes to the object. -/
  told : ∀ o, k.objects.get? x = some o → o.kind = kind → ∃ words status,
    ObjectStatus.ofWords kind words = some status ∧ status.Of o ∧
    ((∃ a, (k.perform call).result = .ok a) ↔ ∃ place, k.memory.locate address (36 + 4 * words.length) = .ok place) ∧
    ∀ a, (k.perform call).result = .ok a → k.StatusWritten (k.perform call).kernel address o.name words
  unknown : (∀ o, k.objects.get? x = some o → o.kind ≠ kind) → (k.perform call).result = .error (.unknown kind x)
  /-- A failure is noted, and changes nothing. -/
  failed : ∀ e, (k.perform call).result = .error e → ∃ journal, (k.perform call).kernel = { k with journal }

theorem statusWritten_of_writeBytes {name : String} {words : List UInt32} {m' : Memory}
    (h : k.memory.writeBytes address (statusBlock name words) = .ok m') :
    k.StatusWritten { k with memory := m' } address name words := by
  refine ⟨rfl, Memory.shows_of_writeBytes h, fun place hout => Memory.cells_of_writeBytes h ?_⟩
  rwa [length_statusBlock]

/-- A block is written as a whole, if it is in range, or not at all. -/
theorem writeStatus_cases (k : Kernel) (address : UInt32) (name : String) (words : List UInt32) :
    ((∃ place, k.memory.locate address (36 + 4 * words.length) = .ok place) ∧
        ∃ k', k.StatusWritten k' address name words ∧ k.writeStatus address name words = k'.done ()) ∨
      (¬ ∃ place, k.memory.locate address (36 + 4 * words.length) = .ok place) ∧
        ∃ f, k.writeStatus address name words = k.fault f := by
  have hrange := (Memory.agrees_writeBytes k.memory address (statusBlock name words)).accepted
  rw [length_statusBlock] at hrange
  rw [← hrange]
  unfold writeStatus
  cases hwrite : k.memory.writeBytes address (statusBlock name words) with
  | ok m' => exact Or.inl ⟨⟨m', rfl⟩, _, statusWritten_of_writeBytes hwrite, rfl⟩
  | error f =>
    refine Or.inr ⟨?_, f, rfl⟩
    rintro ⟨m', hm'⟩
    cases hm'

/-- **A status block tells what the object is**, if owners have ids and pipes hold what is in them. -/
theorem tellsStatus (h : k.Orderly) (howners : k.OwnersBelow) (hfits : k.Objects Object.Fits)
    (hcall : call.refers? = some (kind, x, address)) : k.TellsStatus call kind x address := by
  obtain ⟨hnone, hperform⟩ | ⟨o, words, hget, hkind, hwords, hperform⟩ := perform_refer (k := k) hcall
  · refine ⟨fun o ho hkind => ?_, fun _ => by rw [hperform]; rfl, fun e _ => ⟨k.journal, by rw [hperform]; rfl⟩⟩
    cases hnone.symm.trans (ObjectTable.find?_eq_some.mpr ⟨ho, hkind⟩)
  · have hthread : o.kind ≠ .thread := by
      cases o with
      | thread t => cases hwords
      | _ => simp [Object.kind]
    obtain ⟨status, hstatus, hof⟩ := Object.exists_status hwords (length_waiting_lt h hget)
      (fun m t hm => howners.owner_ne (ObjectTable.mutex?_eq_some.mpr (hm ▸ hget))) (hfits x o hget hthread)
    obtain ⟨hplace, k', htold, hwrite⟩ | ⟨hplace, f, hwrite⟩ := writeStatus_cases k address o.name words
    · have hreply : k.perform call = k'.done .done := by
        rw [hperform, hwrite]
        rfl
      refine ⟨fun o' ho' _ => ?_, fun hother => absurd hkind (hother o hget), fun e he => ?_⟩
      · obtain rfl := Option.some.inj (hget.symm.trans ho')
        rw [hreply]
        exact ⟨words, status, hkind ▸ hstatus, hof, ⟨fun _ => hplace, fun _ => ⟨.done, rfl⟩⟩, fun _ _ => htold⟩
      · rw [hreply] at he
        cases he
    · have hreply : k.perform call = k.fault f := by
        rw [hperform, hwrite]
        rfl
      have hfails : ∀ a, (k.perform call).result ≠ .ok a := by
        intro a ha
        rw [hreply] at ha
        cases ha
      refine ⟨fun o' ho' _ => ?_, fun hother => absurd hkind (hother o hget),
        fun e _ => ⟨.faulted f :: k.journal, by rw [hreply]; rfl⟩⟩
      obtain rfl := Option.some.inj (hget.symm.trans ho')
      refine ⟨words, status, hkind ▸ hstatus, hof, ⟨?_, fun h => absurd h hplace⟩, fun a ha => absurd ha (hfails a)⟩
      rintro ⟨a, ha⟩
      exact absurd ha (hfails a)

/-- **Status blocks decode to the live object.** In every reachable state, a call for the status of an object succeeds
exactly if there is such an object and the block is in range. Memory then holds the block, its words decode to the
object as it is, and neither another byte nor anything else of the kernel has changed; a call that fails has changed
nothing but the journal. -/
theorem statusBlocks_run (config : KernelConfig) (memory : Memory) (operations : List Operation)
    (hids : (Kernel.new config memory).handedOut operations < 2 ^ 32 - 1)
    (hcall : call.refers? = some (kind, x, address)) :
    ((Kernel.new config memory).run operations).TellsStatus call kind x address :=
  tellsStatus (orderly_run config memory operations hids) (ownersBelow_run config memory operations hids)
    (objects_run (fun _ h _ => h.fits) (fun _ _ _ _ h => h.fits) config memory operations) hcall

/-- A thread creates a recursive mutex that it holds twice, and another waits for it. The name has 34 bytes, so the last
character that has room in a block is cut. -/
def ownedMutex : List Operation :=
  [.syscall (.createThread "main" 0x08900000 32 0x1000 0), .syscall (.createThread "rival" 0x08900000 33 0x1000 0),
    .syscall (.startThread 1 0 0), .syscall (.startThread 2 0 0), .dispatch,
    .syscall (.createMutex "ééééééééééééééééé" 0x200 2), .delayThread 100 false, .dispatch,
    .syscall (.lockMutex 3 1 0 false)]

/-- The block of that mutex: 56 bytes, the name cut in the middle of a character, owner 1 and one waiter. -/
theorem statusBlocks_run_ownedMutex :
    (Kernel.new {} {}).handedOut ownedMutex < 2 ^ 32 - 1 ∧
      (((Kernel.new {} {}).run ownedMutex).perform (.referMutex 3 0x08800000)).result = .ok .done ∧
      ((((Kernel.new {} {}).run ownedMutex).after (.syscall (.referMutex 3 0x08800000))).memory.readBytes
        0x08800000 56).toOption = some ([56, 0, 0, 0] ++ List.flatten (List.replicate 15 [0xC3, 0xA9]) ++ [0xC3, 0] ++
          [0, 2, 0, 0] ++ [2, 0, 0, 0] ++ [2, 0, 0, 0] ++ [1, 0, 0, 0] ++ [1, 0, 0, 0]) ∧
      ((Kernel.new {} {}).run ownedMutex).TellsStatus (.referMutex 3 0x08800000) .mutex 3 0x08800000 := by
  have hids : (Kernel.new {} {}).handedOut ownedMutex < 2 ^ 32 - 1 := handedOut_lt (by decide)
  exact ⟨hids, by decide +kernel, by decide +kernel, statusBlocks_run {} {} ownedMutex hids rfl⟩

end Kernel
end GuestKernel
