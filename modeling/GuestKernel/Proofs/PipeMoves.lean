/-
# Message pipe calls as moves

A transfer through a pipe is followed by rounds, each of which serves the receiver or the sender at the front. A round
takes one request off its queue and wakes its thread, so there are enough rounds to leave the pipe idle
(`settleFor_settles`).

The pipe is stored after the rounds. Waking threads does not read it, so storing it before them gives the same kernel
(`settleFor_put`), and the call is one change of the pipe followed by the wakes of the threads it served.

Source: specification, 4.5.
-/

import GuestKernel.Proofs.SyncMoves

namespace GuestKernel

/-! ### Guest memory -/

namespace Memory

variable {m m' : Memory} {address : UInt32} {bytes : List UInt8}

/-- Where an access lands does not depend on what the memory holds. -/
theorem locate_congr (h : m'.hasScratchpad = m.hasScratchpad) (address : UInt32) (length : Nat) :
    m'.locate address length = m.locate address length := by
  unfold locate regionOf? regions
  rw [h]

/-- A write moves no region. -/
theorem locate_of_writeBytes (h : m.writeBytes address bytes = .ok m') (a : UInt32)
    (length : Nat) : m'.locate a length = m.locate a length := by
  unfold writeBytes at h
  cases hl : m.locate address bytes.length with
  | error f =>
    rw [hl] at h
    cases h
  | ok place =>
    rw [hl] at h
    cases h
    exact locate_congr rfl a length

theorem exists_writeBytes {place : Place} (h : m.locate address bytes.length = .ok place) :
    m.writeBytes address bytes = .ok (m.store place bytes) := by
  unfold writeBytes
  rw [h]
  rfl

theorem length_of_readBytes {count : Nat} (h : m.readBytes address count = .ok bytes) : bytes.length = count := by
  unfold readBytes at h
  cases hl : m.locate address count with
  | error f =>
    rw [hl] at h
    cases h
  | ok place =>
    rw [hl] at h
    cases h
    exact length_bytesAt m place count

end Memory

namespace PipeRequest

variable {r : PipeRequest} {m : Memory} {amount : Nat} {bytes : List UInt8} {p : MessagePipe}

/-- A request whose guest side is in order: its buffer is mapped if any byte moves. -/
theorem locate_of_checkMemory (h : r.checkMemory m amount = .ok ()) (hpos : 0 < amount) :
    ∃ place, m.locate r.address amount = .ok place := by
  unfold checkMemory at h
  rw [if_pos hpos] at h
  cases hl : m.locate r.address amount with
  | error f =>
    rw [hl] at h
    cases h
  | ok place => exact ⟨place, rfl⟩

/-- A request whose guest side is in order: the word for the amount can be written. -/
theorem writeOptional_of_checkMemory (h : r.checkMemory m amount = .ok ()) {m' : Memory}
    (hm : ∀ a length, m'.locate a length = m.locate a length) (value : UInt32) :
    ∃ m'', m'.writeOptional r.outAddress value = .ok m'' := by
  unfold checkMemory at h
  unfold Memory.writeOptional
  by_cases hout : r.outAddress = 0
  · exact ⟨m', if_pos hout⟩
  · rw [if_neg hout]
    split at h
    · cases h
    · rw [if_neg hout] at h
      cases hl : m.locate r.outAddress 4 with
      | error f =>
        rw [hl] at h
        cases h
      | ok place =>
        refine ⟨m'.store place _, Memory.exists_writeBytes ?_⟩
        rw [hm, length_toBytes]
        exact hl

/-- A send whose guest side is in order goes through, unless it is a send of nothing from nowhere. -/
theorem read_cases (h : r.checkMemory m amount = .ok ()) :
    (∃ bytes m', m.readBytes r.address amount = .ok bytes ∧
        m.writeOptional r.outAddress (UInt32.ofNat amount) = .ok m') ∨
      ∃ f, amount = 0 ∧ m.readBytes r.address amount = .error f := by
  cases hread : m.readBytes r.address amount with
  | ok bytes =>
    obtain ⟨m', hout⟩ := writeOptional_of_checkMemory h (fun _ _ => rfl) (UInt32.ofNat amount)
    exact Or.inl ⟨bytes, m', rfl, hout⟩
  | error f =>
    refine Or.inr ⟨f, ?_, rfl⟩
    by_contra hne
    obtain ⟨place, hplace⟩ := locate_of_checkMemory h (Nat.pos_of_ne_zero hne)
    unfold Memory.readBytes at hread
    rw [hplace] at hread
    cases hread

/-- A receive whose guest side is in order goes through, unless it is a receive of nothing to nowhere. -/
theorem write_cases (h : r.checkMemory m bytes.length = .ok ()) : (∃ m' m'', m.writeBytes r.address bytes = .ok m' ∧
        m'.writeOptional r.outAddress (UInt32.ofNat bytes.length) = .ok m'') ∨
      ∃ f, bytes = [] ∧ m.writeBytes r.address bytes = .error f := by
  cases hwrite : m.writeBytes r.address bytes with
  | ok m' =>
    obtain ⟨m'', hout⟩ := writeOptional_of_checkMemory h (Memory.locate_of_writeBytes hwrite)
      (UInt32.ofNat bytes.length)
    exact Or.inl ⟨m', m'', rfl, hout⟩
  | error f =>
    refine Or.inr ⟨f, ?_, rfl⟩
    by_contra hne
    obtain ⟨place, hplace⟩ := locate_of_checkMemory h (List.length_pos_iff.mpr hne)
    rw [Memory.exists_writeBytes hplace] at hwrite
    cases hwrite

theorem length_le_room (ha : p.sendAmount? r = some amount)
    (hread : m.readBytes r.address amount = .ok bytes) : bytes.length ≤ p.room := by
  rw [Memory.length_of_readBytes hread]
  exact (amount?_le ha).1

theorem length_take_receiveAmount (ha : p.receiveAmount? r = some amount) : (p.buffer.take amount).length = amount := by
  rw [List.length_take]
  exact Nat.min_eq_left (amount?_le ha).1

end PipeRequest

/-! ### Rounds -/

namespace MessagePipe

variable {p p' p₁ : MessagePipe} {m : Memory} {w : Waiter PipeRequest}

/-- The waiter whose request is served. -/
def Transfer.waiter : Transfer → Waiter PipeRequest
  | receive w _ => w
  | send w _ => w
  | reject w _ => w

/-- What a round serves: the receiver at the front if it can be, else the sender at the front. -/
inductive Next (p : MessagePipe) (m : Memory) : Transfer → MessagePipe → Prop where
  | receive {w : Waiter PipeRequest} {rest : WaitQueue PipeRequest} {amount : Nat}
      (hq : p.receivers = w :: rest) (ha : p.receiveAmount? w.request = some amount)
      (hm : w.request.checkMemory m amount = .ok ()) :
      Next p m (.receive w (p.buffer.take amount)) { p with receivers := rest, buffer := p.buffer.drop amount }
  | rejectReceiver {w : Waiter PipeRequest} {rest : WaitQueue PipeRequest} {amount : Nat} {f : Fault}
      (hq : p.receivers = w :: rest) (ha : p.receiveAmount? w.request = some amount)
      (hm : w.request.checkMemory m amount = .error f) :
      Next p m (.reject w f) { p with receivers := rest }
  | send {w : Waiter PipeRequest} {rest : WaitQueue PipeRequest} {amount : Nat}
      (hq : p.senders = w :: rest) (ha : p.sendAmount? w.request = some amount)
      (hm : w.request.checkMemory m amount = .ok ()) : Next p m (.send w amount) { p with senders := rest }
  | rejectSender {w : Waiter PipeRequest} {rest : WaitQueue PipeRequest} {amount : Nat} {f : Fault}
      (hq : p.senders = w :: rest) (ha : p.sendAmount? w.request = some amount)
      (hm : w.request.checkMemory m amount = .error f) : Next p m (.reject w f) { p with senders := rest }

/-- The rule by which a round chooses. -/
theorem next_of_next? {t : Transfer} (h : p.next? m = some (t, p₁)) : Next p m t p₁ := by
  unfold next? at h
  dsimp only at h
  split at h
  · next found hfound =>
    cases h
    split at hfound
    · cases hfound
    · next w rest hq =>
      obtain ⟨amount, ha, hx⟩ := Option.map_eq_some_iff.mp hfound
      split at hx
      · next f hm =>
        cases hx
        exact .rejectReceiver hq ha hm
      · next hm =>
        cases hx
        exact .receive hq ha hm
  · split at h
    · cases h
    · next w rest hq =>
      obtain ⟨amount, ha, hx⟩ := Option.map_eq_some_iff.mp h
      split at hx
      · next f hm =>
        cases hx
        exact .rejectSender hq ha hm
      · next hm =>
        cases hx
        exact .send hq ha hm

/-- A pipe is idle when there is nothing to serve. -/
theorem idle_of_next?_eq_none (h : p.next? m = none) : p.Idle := by
  unfold next? at h
  dsimp only at h
  split at h
  · cases h
  · next hr =>
    constructor
    · intro w hw
      split at hr
      · next hq =>
        rw [hq] at hw
        cases hw
      · next w' rest hq =>
        rw [hq] at hw
        cases hw
        exact Option.map_eq_none_iff.mp hr
    · intro w hw
      split at h
      · next hq =>
        rw [hq] at hw
        cases hw
      · next w' rest hq =>
        rw [hq] at hw
        cases hw
        exact Option.map_eq_none_iff.mp h

/-- One round as the pipe sees it: a request leaves its queue, and bytes move or not. -/
inductive Round (p : MessagePipe) : Waiter PipeRequest → MessagePipe → Prop where
  | receive {w : Waiter PipeRequest} {rest : WaitQueue PipeRequest} (hq : p.receivers = w :: rest) (count : Nat) :
      Round p w { p with receivers := rest, buffer := p.buffer.drop count }
  | send {w : Waiter PipeRequest} {rest : WaitQueue PipeRequest} (hq : p.senders = w :: rest)
      (bytes : List UInt8) (hroom : bytes.length ≤ p.room) :
      Round p w { p with senders := rest, buffer := p.buffer ++ bytes }

theorem Serves.refl (p : MessagePipe) : Serves p p [] where
  frame := rfl
  served := ⟨[], [], rfl, rfl, .nil⟩
  fits h := h

theorem length_drop_le (p : MessagePipe) (count : Nat) (h : p.buffer.length ≤ p.capacity.toNat) :
    (p.buffer.drop count).length ≤ p.capacity.toNat := by
  rw [List.length_drop]
  omega

theorem length_append_le (p : MessagePipe) {bytes : List UInt8} (hroom : bytes.length ≤ p.room)
    (h : p.buffer.length ≤ p.capacity.toNat) : (p.buffer ++ bytes).length ≤ p.capacity.toNat := by
  rw [List.length_append]
  unfold room at hroom
  omega

/-- A round in front of others. -/
theorem Serves.cons {off : List ThreadId} (h : p.Round w p₁) (hs : Serves p₁ p' off) :
    Serves p p' (w.thread :: off) := by
  obtain ⟨sent, received, hsent, hreceived, hoff⟩ := hs.served
  cases h with
  | receive hq count =>
    refine ⟨hs.frame, ⟨sent, w :: received, hsent, ?_, ?_⟩, fun hfit => hs.fits ?_⟩
    · rw [hq, List.cons_append, ← hreceived]
    · exact (hoff.cons w.thread).trans List.perm_middle.symm
    · exact p.length_drop_le count hfit
  | send hq bytes hroom =>
    refine ⟨hs.frame, ⟨w :: sent, received, ?_, hreceived, hoff.cons w.thread⟩, fun hfit => hs.fits ?_⟩
    · rw [hq, List.cons_append, ← hsent]
    · exact p.length_append_le hroom hfit

/-- A round serves one waiter. -/
theorem Round.length_add (h : p.Round w p₁) :
    p.senders.length + p.receivers.length = p₁.senders.length + p₁.receivers.length + 1 := by
  cases h with
  | receive hq count =>
    rw [hq, List.length_cons]
    dsimp only
    omega
  | send hq bytes hroom =>
    rw [hq, List.length_cons]
    dsimp only
    omega

theorem Idle.of_empty (hs : p.senders = []) (hr : p.receivers = []) : p.Idle where
  receiver w hw := by
    rw [hr] at hw
    cases hw
  sender w hw := by
    rw [hs] at hw
    cases hw

end MessagePipe

namespace Kernel

variable {k : Kernel} {p : MessagePipe} {r : PipeRequest} {id : ObjectId} {k' : Kernel}

/-- Serving a request wakes its thread, after writes to guest memory and the journal. -/
theorem transfer_wakes (k : Kernel) (p : MessagePipe) (t : MessagePipe.Transfer) :
    ∃ k' result, Quiet k k' ∧ (k.transfer p t).1 = k'.wake t.waiter.thread result ∧ k'.wakings = k.wakings := by
  cases t with
  | receive w bytes =>
    unfold transfer completeReceive
    dsimp only
    cases k.memory.writeBytes w.request.address bytes with
    | error f => exact ⟨_, _, ((Quiet.note k rfl).trans (Quiet.note _ rfl)).trans (Quiet.note _ rfl), rfl, rfl⟩
    | ok memory =>
      dsimp only
      cases memory.writeOptional w.request.outAddress (UInt32.ofNat bytes.length) with
      | error f =>
        exact ⟨_, _, (((Quiet.memory k memory).trans (Quiet.note _ rfl)).trans (Quiet.note _ rfl)).trans
          (Quiet.note _ rfl), rfl, rfl⟩
      | ok memory' => exact ⟨_, _, (Quiet.memory k memory').trans (Quiet.note _ rfl), rfl, rfl⟩
  | send w amount =>
    unfold transfer completeSend
    dsimp only
    cases k.memory.readBytes w.request.address amount with
    | error f => exact ⟨_, _, ((Quiet.note k rfl).trans (Quiet.note _ rfl)).trans (Quiet.note _ rfl), rfl, rfl⟩
    | ok bytes =>
      dsimp only
      cases k.memory.writeOptional w.request.outAddress (UInt32.ofNat amount) with
      | error f => exact ⟨_, _, (Quiet.note k rfl).trans (Quiet.note _ rfl), rfl, rfl⟩
      | ok memory => exact ⟨_, _, (Quiet.memory k memory).trans (Quiet.note _ rfl), rfl, rfl⟩
  | reject w f => exact ⟨_, _, (Quiet.note k rfl).trans (Quiet.note _ rfl), rfl, rfl⟩

/-- Serving the next request is a round of the pipe. -/
theorem round_transfer {t : MessagePipe.Transfer} {p₁ : MessagePipe} (h : p.Next k.memory t p₁) :
    p.Round t.waiter (k.transfer p₁ t).2 := by
  cases h with
  | @receive w rest amount hq ha hm => exact .receive hq amount
  | @rejectReceiver w rest amount f hq ha hm => exact .receive hq 0
  | @rejectSender w rest amount f hq ha hm =>
    have hround : p.Round w { p with senders := rest, buffer := p.buffer ++ [] } := .send hq [] (Nat.zero_le _)
    rw [List.append_nil] at hround
    exact hround
  | @send w rest amount hq ha hm =>
    have hnone : p.Round w { p with senders := rest, buffer := p.buffer ++ [] } := .send hq [] (Nat.zero_le _)
    rw [List.append_nil] at hnone
    unfold transfer completeSend MessagePipe.Transfer.waiter
    dsimp only
    split
    · exact hnone
    · next bytes hread =>
      have hroom : bytes.length ≤ p.room := by
        rw [Memory.length_of_readBytes hread]
        exact (PipeRequest.amount?_le ha).1
      split <;> exact .send hq bytes hroom

/-- Storing an object as it is. -/
theorem put_self {o : Object} (h : k.objects.get? o.id = some o) : k.put o = k := by
  unfold put
  rw [ObjectTable.put_eq_self h]

/-- A receive of no bytes leaves the pipe as it was. -/
theorem put_drop {amount : Nat} (hget : k.objects.get? p.id = some (.messagePipe p))
    (ha : p.receiveAmount? r = some amount) (hempty : p.buffer.take amount = []) :
    k.put (.messagePipe (p.drop amount)) = k := by
  have hlen := PipeRequest.length_take_receiveAmount ha
  have hdrop : p.drop amount = p := by
    rw [hempty, List.length_nil] at hlen
    rw [← hlen]
    rfl
  rw [hdrop]
  exact put_self hget

/-- An allocated block has the size that was asked for. -/
theorem size_of_allocateBlock {partition : PartitionId} {name : String} {placement : Placement}
    {alignment size : UInt32} {block : Block}
    (h : (k.allocateBlock partition name placement alignment size).result = .ok block) : block.size = size := by
  unfold allocateBlock at h
  split at h
  · cases h
  · next p _ =>
    dsimp only at h
    split at h
    · cases h
    · next block' p' hp =>
      cases h
      unfold Partition.allocate at hp
      split at hp
      · cases hp
      · split at hp
        · cases hp
        · cases hp
          rfl

theorem admitPipeRequest_eq_ok (h : k.admitPipeRequest id r = .ok p) :
    p.id = id ∧ k.objects.get? p.id = some (.messagePipe p) ∧ p.check r = .ok () := by
  unfold admitPipeRequest at h
  split at h
  · cases h
  · next p' hp =>
    cases hc : p'.check r with
    | error e =>
      rw [hc] at h
      cases h
    | ok u =>
      rw [hc] at h
      cases h
      obtain ⟨hid, hget⟩ := ObjectTable.keyed_messagePipe? hp
      exact ⟨hid, hget, hc⟩

/-- The errors of an admission are not those of a transfer that has to wait. -/
theorem admitPipeRequest_eq_error {e : KernelError}
    (h : k.admitPipeRequest id r = .error e) : e ≠ .pipeFull ∧ e ≠ .pipeEmpty := by
  unfold admitPipeRequest at h
  split at h
  · cases h
    exact ⟨nofun, nofun⟩
  · unfold MessagePipe.check at h
    split at h
    · cases h
      exact ⟨nofun, nofun⟩
    · split at h
      · cases h
        exact ⟨nofun, nofun⟩
      · cases h

/-- A send that is tried changes nothing but the journal, or puts bytes that fit into the pipe, which is then settled. -/
theorem trySendPipe_cases (k : Kernel) (id : ObjectId) (r : PipeRequest) :
    (∃ k' e, Quiet k k' ∧ Noted k k' ∧ k.trySendPipe id r = k'.refuse e) ∨
      ∃ p memory bytes, p.id = id ∧ k.objects.get? p.id = some (.messagePipe p) ∧ bytes.length ≤ p.room ∧
        k.trySendPipe id r = (({ k with memory }).settle (p.push bytes)).done () := by
  unfold trySendPipe
  split
  · exact Or.inl ⟨k, _, .refl k, .refl k, rfl⟩
  · next p hp =>
    obtain ⟨hid, hget, -⟩ := admitPipeRequest_eq_ok hp
    split
    · exact Or.inl ⟨k, _, .refl k, .refl k, rfl⟩
    · next amount hamount =>
      have ha : p.sendAmount? r = some amount := by
        split at hamount
        · exact hamount
        · cases hamount
      split
      · next f _ => exact Or.inl ⟨k.note (.faulted f), _, .note k rfl, .note k _, rfl⟩
      · next hcheck =>
        obtain ⟨bytes, memory, hread, hout⟩ | ⟨f, -, hread⟩ := PipeRequest.read_cases hcheck <;> rw [hread]
        · dsimp only
          rw [hout]
          exact Or.inr ⟨p, memory, bytes, hid, hget, PipeRequest.length_le_room ha hread, rfl⟩
        · exact Or.inl ⟨k.note (.faulted f), _, .note k rfl, .note k _, rfl⟩

/-- A receive that is tried changes nothing but the journal, or takes bytes out of the pipe, which is then settled. -/
theorem tryReceivePipe_cases (k : Kernel) (id : ObjectId) (r : PipeRequest) :
    (∃ k' e, Quiet k k' ∧ Noted k k' ∧ k.tryReceivePipe id r = k'.refuse e) ∨
      ∃ p memory amount, p.id = id ∧ k.objects.get? p.id = some (.messagePipe p) ∧
        k.tryReceivePipe id r = (({ k with memory }).settle (p.drop amount)).done () := by
  unfold tryReceivePipe
  split
  · exact Or.inl ⟨k, _, .refl k, .refl k, rfl⟩
  · next p hp =>
    obtain ⟨hid, hget, -⟩ := admitPipeRequest_eq_ok hp
    split
    · exact Or.inl ⟨k, _, .refl k, .refl k, rfl⟩
    · next amount hamount =>
      have ha : p.receiveAmount? r = some amount := by
        split at hamount
        · exact hamount
        · cases hamount
      have hlen := PipeRequest.length_take_receiveAmount ha
      split
      · next f _ => exact Or.inl ⟨k.note (.faulted f), _, .note k rfl, .note k _, rfl⟩
      · next hcheck =>
        dsimp only
        obtain ⟨m, memory, hwrite, hout⟩ | ⟨f, hempty, hwrite⟩ := PipeRequest.write_cases (hlen.symm ▸ hcheck) <;>
          rw [hwrite]
        · dsimp only
          rw [hout]
          exact Or.inr ⟨p, memory, amount, hid, hget, rfl⟩
        · dsimp only
          rw [put_drop hget ha hempty]
          exact Or.inl ⟨k.note (.faulted f), _, .note k rfl, .note k _, rfl⟩

/-- A send that could not be made at once leaves the kernel alone. -/
theorem trySendPipe_full (h : k.trySendPipe id r = ⟨.error .pipeFull, k'⟩) :
    k' = k ∧ ∃ p, k.admitPipeRequest id r = .ok p ∧ (p.senders = [] → p.sendAmount? r = none) := by
  unfold trySendPipe at h
  split at h
  · next e he =>
    cases h
    exact absurd rfl (admitPipeRequest_eq_error he).1
  · next p hp =>
    split at h
    · next hnone =>
      cases h
      refine ⟨rfl, p, hp, fun hs => ?_⟩
      rw [hs] at hnone
      exact hnone
    · split at h
      · cases h
      · split at h
        · cases h
        · split at h <;> cases h

/-- A receive that could not be made at once leaves the kernel alone. -/
theorem tryReceivePipe_empty (h : k.tryReceivePipe id r = ⟨.error .pipeEmpty, k'⟩) :
    k' = k ∧ ∃ p, k.admitPipeRequest id r = .ok p ∧ (p.receivers = [] → p.receiveAmount? r = none) := by
  unfold tryReceivePipe at h
  split at h
  · next e he =>
    cases h
    exact absurd rfl (admitPipeRequest_eq_error he).2
  · next p hp =>
    split at h
    · next hnone =>
      cases h
      refine ⟨rfl, p, hp, fun hs => ?_⟩
      rw [hs] at hnone
      exact hnone
    · split at h
      · cases h
      · dsimp only at h
        split at h
        · cases h
        · split at h <;> cases h

/-! ### Storing the pipe before or after the wakes -/

section Stored

variable {x : Object}

theorem put_putThread {t : Thread} (h : t.id ≠ x.id) : (k.put x).putThread t = (k.putThread t).put x := by
  have hcomm : (k.objects.put x).put (.thread t) = (k.objects.put (.thread t)).put x :=
    ObjectTable.put_comm fun hx => h hx.symm
  unfold putThread put
  dsimp only
  rw [hcomm]

theorem writeRemaining_put (id : ThreadId) (w : Wait) :
    (k.put x).writeRemaining id w = (k.writeRemaining id w).put x := by
  have hnow : (k.put x).now = k.now := rfl
  have hmemory : (k.put x).memory = k.memory := rfl
  unfold writeRemaining
  rw [hnow, hmemory]
  split
  · rfl
  · cases w.remaining? k.now with
    | none => rfl
    | some remaining =>
      dsimp only
      cases k.memory.writeWord w.timeoutAddress remaining <;> rfl

theorem schedule_put (id : ThreadId) (priority : UInt32) :
    (k.put x).schedule id priority = (k.schedule id priority).put x := by
  have hready : (k.put x).ready = k.ready := rfl
  unfold schedule
  rw [hready]
  cases k.ready.insert id priority <;> rfl

variable (hx : x.kind ≠ .thread) (hk : k.thread? x.id = none)
include hx hk

theorem thread?_put_hidden (id : ThreadId) : (k.put x).thread? id = k.thread? id := by
  rw [thread?_put, Object.thread?_eq_none.mpr hx]
  split
  · next h => rw [← h, hk]
  · rfl

/-- Waking a thread does not read objects that are no threads. -/
theorem wake_put (id : ThreadId) (result : Int32) : (k.put x).wake id result = (k.wake id result).put x := by
  unfold wake
  rw [thread?_put_hidden hx hk]
  cases ht : k.thread? id with
  | none => rfl
  | some t =>
    have hid : t.id ≠ x.id := by
      rw [id_of_thread? ht]
      rintro rfl
      rw [hk] at ht
      cases ht
    dsimp only
    cases hw : t.wait with
    | none => rfl
    | some w =>
      have hwrite : ((k.put x).putThread (t.unpark result)).writeRemaining id w =
          ((k.putThread (t.unpark result)).writeRemaining id w).put x := by
        rw [put_putThread (t := t.unpark result) hid, writeRemaining_put]
      dsimp only
      rw [hwrite]
      cases hc : t.context with
      | none =>
        dsimp only
        split
        · rfl
        · rw [schedule_put]
          rfl
      | some context =>
        dsimp only
        split
        · rfl
        · show (((((k.putThread (t.unpark result)).writeRemaining id w).setRegister context Register.v0
            result.toUInt32).put x).schedule id t.priority).note _ = _
          rw [schedule_put]
          rfl

omit hx in
theorem thread?_wake_hidden (id : ThreadId) (result : Int32) : (k.wake id result).thread? x.id = none := by
  by_cases h : x.id = id
  · rw [wake_of_unknown (h ▸ hk)]
    exact hk
  · rw [thread?_wake_of_ne h, hk]

/-- Completing a receive and storing another object may be swapped. -/
theorem completeReceive_put (pipe : ObjectId) (w : Waiter PipeRequest) (bytes : List UInt8) :
    (k.put x).completeReceive pipe w bytes = (k.completeReceive pipe w bytes).put x := by
  have hmemory : (k.put x).memory = k.memory := rfl
  have hfail : ∀ (k' : Kernel) (f : Fault), k'.thread? x.id = none →
      ((((k'.put x).note (.faulted f)).note (.receiveFailed pipe w.request.address (.memory f.error))).note
        (.received pipe w.thread bytes.length)).wake w.thread (KernelError.memory f.error).code =
      ((((k'.note (.faulted f)).note (.receiveFailed pipe w.request.address (.memory f.error))).note
        (.received pipe w.thread bytes.length)).wake w.thread (KernelError.memory f.error).code).put x := by
    intro k' f hk'
    exact wake_put (k := ((k'.note (.faulted f)).note
      (.receiveFailed pipe w.request.address (.memory f.error))).note _) hx hk' _ _
  unfold completeReceive
  rw [hmemory]
  cases k.memory.writeBytes w.request.address bytes with
  | error f => exact hfail k f hk
  | ok memory =>
    dsimp only
    cases memory.writeOptional w.request.outAddress (UInt32.ofNat bytes.length) with
    | error f => exact hfail { k with memory } f hk
    | ok memory => exact wake_put (k := ({ k with memory } : Kernel).note _) hx hk _ _

/-- Completing a send and storing another object may be swapped. -/
theorem completeSend_put (p : MessagePipe) (w : Waiter PipeRequest) (amount : Nat) :
    (k.put x).completeSend p w amount = ((k.completeSend p w amount).1.put x, (k.completeSend p w amount).2) := by
  have hmemory : (k.put x).memory = k.memory := rfl
  unfold completeSend
  rw [hmemory]
  cases k.memory.readBytes w.request.address amount with
  | error f =>
    exact Prod.ext (wake_put (k := ((k.note (.faulted f)).note
      (.sendFailed p.id w.request.address f.error)).note _) hx hk _ _) rfl
  | ok bytes =>
    dsimp only
    cases k.memory.writeOptional w.request.outAddress (UInt32.ofNat amount) with
    | error f => exact Prod.ext (wake_put (k := (k.note (.faulted f)).note _) hx hk _ _) rfl
    | ok memory => exact Prod.ext (wake_put (k := ({ k with memory } : Kernel).note _) hx hk _ _) rfl

theorem transfer_put (p : MessagePipe) (t : MessagePipe.Transfer) :
    (k.put x).transfer p t = ((k.transfer p t).1.put x, (k.transfer p t).2) := by
  cases t with
  | receive w bytes => exact Prod.ext (completeReceive_put hx hk p.id w bytes) rfl
  | send w amount => exact completeSend_put hx hk p w amount
  | reject w f =>
    exact Prod.ext (wake_put (k := (k.note (.faulted f)).note
      (.pipeRequestDropped p.id w.thread (.memory f.error))) hx hk _ _) rfl

/-- **The pipe may be stored before the rounds.** -/
theorem settleFor_put (p : MessagePipe) (rounds : Nat) :
    (k.put x).settleFor p rounds = ((k.settleFor p rounds).1.put x, (k.settleFor p rounds).2) := by
  induction rounds generalizing k p with
  | zero => rfl
  | succ n ih =>
    have hmemory : (k.put x).memory = k.memory := rfl
    unfold settleFor
    rw [hmemory]
    cases p.next? k.memory with
    | none => rfl
    | some found =>
      obtain ⟨t, p₁⟩ := found
      dsimp only
      rw [transfer_put hx hk]
      obtain ⟨k', result, hq, hw, -⟩ := transfer_wakes k p₁ t
      refine ih ?_ _
      rw [hw]
      exact thread?_wake_hidden ((hq.thread? _).trans hk) _ _

end Stored

end Kernel

namespace Moves

variable {A : Label → Prop} {k : Kernel} {id : ObjectId} {p : MessagePipe} {L : List ThreadId}

variable (hA : ∀ l, l.IsPlain → A l)

include hA

/-- The rounds serve requests from the fronts of the queues and wake their threads; enough of them leave the pipe
idle. -/
theorem settleFor_settles (p : MessagePipe) (rounds : Nat) : ∃ off, p.Serves (k.settleFor p rounds).2 off ∧
      (p.senders.length + p.receivers.length ≤ rounds → (k.settleFor p rounds).2.Idle) ∧
      Moves A ⟨k, off⟩ ⟨(k.settleFor p rounds).1, []⟩ := by
  induction rounds generalizing k p with
  | zero =>
    refine ⟨[], .refl p, fun hle => ?_, .refl _⟩
    have hempty : p.senders.length = 0 ∧ p.receivers.length = 0 := by omega
    exact .of_empty (List.length_eq_zero_iff.mp hempty.1) (List.length_eq_zero_iff.mp hempty.2)
  | succ n ih =>
    unfold Kernel.settleFor
    split
    · next hn => exact ⟨[], .refl p, fun _ => MessagePipe.idle_of_next?_eq_none hn, .refl _⟩
    · next t p₁ hn =>
      have hround := Kernel.round_transfer (MessagePipe.next_of_next? hn)
      obtain ⟨k', result, hq, hw, -⟩ := Kernel.transfer_wakes k p₁ t
      obtain ⟨off, hserves, hidle, hmoves⟩ := ih (k := (k.transfer p₁ t).1) (k.transfer p₁ t).2
      refine ⟨t.waiter.thread :: off, hserves.cons hround, fun hle => hidle ?_, ?_⟩
      · have := hround.length_add
        omega
      · rw [hw] at hmoves
        have hwake : Move (.wake t.waiter.thread result) ⟨k', t.waiter.thread :: off⟩
            ⟨k'.wake t.waiter.thread result, off⟩ := .wake
        have hstep := (quiet (L := t.waiter.thread :: off) hA hq).trans (routine hA hwake trivial)
        dsimp only
        rw [hw]
        exact hstep.trans hmoves

/-- A pipe whose bytes have changed is stored and settled. -/
theorem settle (hid : ∀ l, l.Changes .messagePipe p.id → A l)
    (hget : k.objects.get? p.id = some (.messagePipe p)) {buffer : List UInt8}
    (hfits : p.buffer.length ≤ p.capacity.toNat → buffer.length ≤ p.capacity.toNat) :
    Moves A ⟨k, []⟩ ⟨k.settle { p with buffer }, []⟩ := by
  have hk : k.thread? p.id = none := by
    rw [Kernel.thread?, ObjectTable.thread?_eq_bind, hget]
    rfl
  unfold Kernel.settle
  dsimp only
  generalize hrounds : p.senders.length + p.receivers.length = rounds
  generalize hp' : (k.settleFor { p with buffer } rounds).2 = p'
  -- The rounds on the kernel in which the settled pipe is stored already.
  obtain ⟨off, hserves, hidle, hmoves⟩ :=
    settleFor_settles (k := k.put (.messagePipe p')) hA { p with buffer } rounds
  have hpid : p'.id = p.id := by
    obtain ⟨_, hs, -⟩ := settleFor_settles (k := k) hA { p with buffer } rounds
    rw [← hp', hs.frame]
  have hkind : (Object.messagePipe p').kind ≠ .thread := by simp [Object.kind]
  rw [Kernel.settleFor_put (x := .messagePipe p') hkind (by rw [← hk, ← hpid]; rfl), hp'] at hserves hidle hmoves
  have hsettles : p.SettlesTo p' off :=
    { frame := hserves.frame
      served := hserves.served
      fits := fun h => hserves.fits (hfits h)
      idle := hidle (Nat.le_of_eq hrounds) }
  exact (change (o := .messagePipe p) hid hget (.settle hsettles)).trans hmoves

/-! ### Pipe calls -/

theorem createPipe (hR : A .reserve)
    (hcreate : ∀ o, o.id = k.nextId → o.kind = .messagePipe → A (.create o)) (name : String)
    (partition : PartitionId) (attributes size : UInt32) :
    Moves A ⟨k, L⟩ ⟨(k.createPipe name partition attributes size).kernel, L⟩ := by
  unfold Kernel.createPipe
  split
  · exact .refl _
  · next hsize =>
    have hs := Kernel.sameObjects_allocateBlock k partition ("pipe:" ++ name) .low Kernel.pipeAlignment size
    have hx := Kernel.contexts_allocateBlock k partition ("pipe:" ++ name) .low Kernel.pipeAlignment size
    obtain ⟨e, -, h, -⟩ | ⟨block, hblock, h⟩ := Reply.kernel_andThen
      (k.allocateBlock partition ("pipe:" ++ name) .low Kernel.pipeAlignment size) _ <;> rw [h]
    · exact reserve hR hs hx
    · refine (reserve hR hs hx).trans ((note hA rfl).trans (registerNew hA (hcreate _ hs.nextId rfl) rfl ?_))
      refine ⟨rfl, rfl, rfl, ?_⟩
      show 0 < block.size
      rw [Kernel.size_of_allocateBlock hblock]
      exact UInt32.pos_iff_ne_zero.mpr hsize

theorem deletePipe (hR : A .reserve)
    (hid : ∀ l, l.Erases .messagePipe id → A l) : Moves A ⟨k, []⟩ ⟨(k.deletePipe id).kernel, []⟩ := by
  unfold Kernel.deletePipe
  split
  · exact .refl _
  · next p hp =>
    split
    · exact .refl _
    · next hw =>
      have hempty : p.senders = [] ∧ p.receivers = [] := by
        simpa [MessagePipe.hasWaiters] using hw
      refine freeAndUnregister (o := .messagePipe p) hA hR hid (ObjectTable.messagePipe?_eq_some.mp hp) nofun ?_ _ _
      show p.senders.threads ++ p.receivers.threads = []
      rw [hempty.1, hempty.2]
      rfl

theorem trySendPipe (hid : ∀ l, l.Changes .messagePipe id → A l) (r : PipeRequest) :
    Moves A ⟨k, []⟩ ⟨(k.trySendPipe id r).kernel, []⟩ := by
  obtain ⟨k', e, hquiet, -, h⟩ | ⟨p, memory, bytes, rfl, hget, hroom, h⟩ := Kernel.trySendPipe_cases k id r <;> rw [h]
  · exact quiet hA hquiet
  · exact (quiet hA (Kernel.Quiet.memory k memory)).trans
      (settle (k := { k with memory }) hA hid hget (p.length_append_le hroom))

theorem tryReceivePipe (hid : ∀ l, l.Changes .messagePipe id → A l) (r : PipeRequest) :
    Moves A ⟨k, []⟩ ⟨(k.tryReceivePipe id r).kernel, []⟩ := by
  obtain ⟨k', e, hquiet, -, h⟩ | ⟨p, memory, amount, rfl, hget, h⟩ := Kernel.tryReceivePipe_cases k id r <;> rw [h]
  · exact quiet hA hquiet
  · exact (quiet hA (Kernel.Quiet.memory k memory)).trans
      (settle (k := { k with memory }) hA hid hget (p.length_drop_le amount))

theorem blockOnPipe (henqueue : ∀ p' : MessagePipe, A (.enqueue (.messagePipe p) (.messagePipe p'))) (r : PipeRequest)
    (timeoutAddress : UInt32) (callbacks sending : Bool) (hp : k.admitPipeRequest id r = .ok p)
    (hs : sending = true → p.senders = [] → p.sendAmount? r = none)
    (hr : sending = false → p.receivers = [] → p.receiveAmount? r = none) :
    Blocks A k (k.blockOnPipe id r timeoutAddress callbacks sending).kernel := by
  obtain ⟨rfl, hget, hcheck⟩ := Kernel.admitPipeRequest_eq_ok hp
  unfold Kernel.blockOnPipe
  rw [ObjectTable.messagePipe?_eq_some.mpr hget]
  refine block (o := .messagePipe p) hA (fun _ _ => henqueue _) hget nofun ?_
  intro thread priority timeout since _
  have hwait : Object.PipeWaits p r sending
      { Kernel.pipeWait p.id r timeoutAddress callbacks sending with timeout, since } :=
    ⟨rfl, rfl, rfl, rfl, rfl, rfl, rfl⟩
  cases sending with
  | true => exact .sender hwait hcheck (hs rfl)
  | false => exact .receiver hwait hcheck (hr rfl)

theorem sendPipe (hid : ∀ l, l.Changes .messagePipe id → A l) (r : PipeRequest)
    (timeoutAddress : UInt32) (callbacks : Bool) : Blocks A k (k.sendPipe id r timeoutAddress callbacks).kernel := by
  have htry := trySendPipe (k := k) hA hid r
  unfold Kernel.sendPipe
  split
  · next k' h =>
    obtain ⟨rfl, p, hp, hs⟩ := Kernel.trySendPipe_full h
    have hpid := (Kernel.admitPipeRequest_eq_ok hp).1
    exact blockOnPipe hA (fun p' => hid (.enqueue _ _) ⟨rfl, hpid⟩) r timeoutAddress callbacks true hp (fun _ => hs) nofun
  · exact .through htry

theorem receivePipe (hid : ∀ l, l.Changes .messagePipe id → A l) (r : PipeRequest)
    (timeoutAddress : UInt32) (callbacks : Bool) : Blocks A k (k.receivePipe id r timeoutAddress callbacks).kernel := by
  have htry := tryReceivePipe (k := k) hA hid r
  unfold Kernel.receivePipe
  split
  · next k' h =>
    obtain ⟨rfl, p, hp, hr⟩ := Kernel.tryReceivePipe_empty h
    have hpid := (Kernel.admitPipeRequest_eq_ok hp).1
    exact blockOnPipe hA (fun p' => hid (.enqueue _ _) ⟨rfl, hpid⟩) r timeoutAddress callbacks false hp nofun (fun _ => hr)
  · exact .through htry

theorem cancelPipe (hid : ∀ l, l.Changes .messagePipe id → A l) (sendersAddress receiversAddress : UInt32) :
    Drains A k (k.cancelPipe id sendersAddress receiversAddress) := by
  unfold Kernel.cancelPipe
  split
  · exact drains_of_moves (.refl _)
  · next p hp =>
    obtain ⟨rfl, hget⟩ := ObjectTable.keyed_messagePipe? hp
    have hreset := change (o := .messagePipe p) hid hget (.resetPipe p)
    dsimp only
    generalize k.put (.messagePipe p.reset) = k₁ at hreset ⊢
    have hq := Kernel.Quiet.withMemory k₁
      (k₁.memory.writeOptional sendersAddress (UInt32.ofNat p.senders.length))
    obtain ⟨e, -, h, he⟩ | ⟨u, -, h⟩ := Reply.kernel_andThen
      (k₁.withMemory (k₁.memory.writeOptional sendersAddress (UInt32.ofNat p.senders.length))) _
    · refine ⟨_, h ▸ hreset.trans (quiet hA hq), fun hok => ?_⟩
      rw [he] at hok
      cases hok
    · rw [h]
      exact drain hA _ _ (hreset.trans (quiet hA hq))

theorem referPipe (address : UInt32) : Moves A ⟨k, L⟩ ⟨(k.referPipe id address).kernel, L⟩ := by
  unfold Kernel.referPipe
  split
  · exact .refl _
  · exact quiet hA (Kernel.Quiet.writeStatus k _ _ _)

end Moves
end GuestKernel
