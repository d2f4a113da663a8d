/-
# What the check of a pipe request promises

Before bytes leave a pipe or enter it, the guest side of the transfer is checked: the buffer, if any byte moves, and the
word for the amount, if there is one. What is done after the check is not undone, so the check has to be enough.

| | check | access |
| --- | --- | --- |
| word for the amount | skipped if its address is zero | skipped if its address is zero |
| buffer | skipped if no byte moves | made even if no byte moves |

The first row agrees, and the word can always be written. The second does not: an access to no bytes still has an
address, which has to be mapped. So a request that passed the check is completed if it moves a byte or its buffer is
mapped (`Reaches`), and else fails by the address that was not checked. Both hold of requests that are tried and of
queued ones that are served later (`Concludes`). No byte is lost by the failure, as none was to move (`MovesNothing`).

Source: specification, 4.5.
-/

import GuestKernel.Proofs.MemoryRanges
import GuestKernel.Proofs.PipeRounds

namespace GuestKernel

namespace PipeRequest

variable {r : PipeRequest} {m : Memory} {n : Nat}

/-- A transfer of so many bytes is one that the check looks at, or its buffer is mapped all the same. -/
def Reaches (r : PipeRequest) (m : Memory) (n : Nat) : Prop := 0 < n ∨ m.isValid r.address = true

/-- Where the check passes, the buffer is one block of memory. -/
theorem locate_of_reaches (hcheck : r.checkMemory m n = .ok ()) (h : r.Reaches m n) :
    ∃ place, m.locate r.address n = .ok place := by
  obtain rfl | hpos := Nat.eq_zero_or_pos n
  · -- The check has not looked at the buffer.
    have hvalid := h.resolve_left (Nat.lt_irrefl 0)
    obtain ⟨place, hplace⟩ := Memory.exists_translate_iff.mpr hvalid
    exact ⟨place, Memory.locate_of_translate hplace (Nat.zero_le _)⟩
  · exact locate_of_checkMemory hcheck hpos

/-- What does not reach memory is a transfer of nothing. -/
theorem locate_of_not_reaches (h : ¬ r.Reaches m n) : n = 0 ∧ m.locate r.address 0 = .error (.unmapped r.address) := by
  obtain ⟨hzero, hvalid⟩ := not_or.mp h
  have hnone : m.regionOf? r.address = none := Option.not_isSome_iff_eq_none.mp hvalid
  refine ⟨Nat.eq_zero_of_not_pos hzero, ?_⟩
  unfold Memory.locate
  rw [hnone]

/-- What can be done with the guest side of a request that passed the check. -/
theorem access_of_reaches (hcheck : r.checkMemory m n = .ok ()) (h : r.Reaches m n) :
    (∃ bytes, m.readBytes r.address n = .ok bytes) ∧
      ∀ bytes : List UInt8, bytes.length = n → ∃ m', m.writeBytes r.address bytes = .ok m' := by
  have hplace := locate_of_reaches hcheck h
  refine ⟨(Memory.agrees_readBytes m r.address n).accepted.mpr hplace, ?_⟩
  rintro bytes rfl
  exact (Memory.agrees_writeBytes m r.address bytes).accepted.mpr hplace

/-- An access to nothing, nowhere. -/
theorem fault_of_not_reaches (h : ¬ r.Reaches m n) : n = 0 ∧ m.readBytes r.address 0 = .error (.unmapped r.address) ∧
    m.writeBytes r.address [] = .error (.unmapped r.address) := by
  obtain ⟨hzero, hplace⟩ := locate_of_not_reaches h
  unfold Memory.readBytes Memory.writeBytes
  rw [hplace, show ([] : List UInt8).length = 0 from rfl, hplace]
  exact ⟨hzero, rfl, rfl⟩

end PipeRequest

namespace Kernel

variable {k : Kernel} {p p₁ : MessagePipe} {id : ObjectId} {r : PipeRequest} {n : Nat}

/-! ### Requests that are tried -/

/-- A send that has come to the check and passed it. -/
structure Sends (k : Kernel) (id : ObjectId) (r : PipeRequest) (p : MessagePipe) (n : Nat) : Prop where
  admitted : k.admitPipeRequest id r = .ok p
  first : p.senders = []
  amount : p.sendAmount? r = some n
  checked : r.checkMemory k.memory n = .ok ()

/-- A receive that has come to the check and passed it. -/
structure Receives (k : Kernel) (id : ObjectId) (r : PipeRequest) (p : MessagePipe) (n : Nat) : Prop where
  admitted : k.admitPipeRequest id r = .ok p
  first : p.receivers = []
  amount : p.receiveAmount? r = some n
  checked : r.checkMemory k.memory n = .ok ()

/-- A tried send moves its bytes and reports the count, or fails where memory is not mapped. -/
theorem Sends.trySendPipe_eq (h : k.Sends id r p n) :
    (∃ bytes m', k.memory.readBytes r.address n = .ok bytes ∧
        k.trySendPipe id r = (({ k with memory := m' }).settle (p.push bytes)).done ()) ∨
      ∃ f, k.memory.readBytes r.address n = .error f ∧ k.trySendPipe id r = k.fault f := by
  unfold trySendPipe
  rw [h.admitted]
  dsimp only
  rw [h.first, List.isEmpty_nil, if_pos rfl, h.amount]
  dsimp only
  rw [h.checked]
  obtain ⟨bytes, m', hread, hout⟩ | ⟨f, -, hread⟩ := PipeRequest.read_cases h.checked
  · rw [hread]
    dsimp only
    rw [hout]
    exact Or.inl ⟨bytes, m', rfl, rfl⟩
  · rw [hread]
    exact Or.inr ⟨f, rfl, rfl⟩

/-- A tried receive moves its bytes and reports the count, or fails where memory is not mapped. -/
theorem Receives.tryReceivePipe_eq (h : k.Receives id r p n) :
    (∃ m₁ m', k.memory.writeBytes r.address (p.buffer.take n) = .ok m₁ ∧
        k.tryReceivePipe id r = (({ k with memory := m' }).settle (p.drop n)).done ()) ∨
      ∃ f, k.memory.writeBytes r.address (p.buffer.take n) = .error f ∧ k.tryReceivePipe id r = k.fault f := by
  have hlen := PipeRequest.length_take_receiveAmount h.amount
  unfold tryReceivePipe
  rw [h.admitted]
  dsimp only
  rw [h.first, List.isEmpty_nil, if_pos rfl, h.amount]
  dsimp only
  rw [h.checked]
  dsimp only
  obtain ⟨m₁, m', hwrite, hout⟩ | ⟨f, hempty, hwrite⟩ := PipeRequest.write_cases (hlen.symm ▸ h.checked)
  · rw [hwrite]
    dsimp only
    rw [hout]
    exact Or.inl ⟨m₁, m', rfl, rfl⟩
  · rw [hwrite]
    dsimp only
    -- The pipe is stored before the failure is told, without the bytes that were taken out: there were none.
    rw [put_drop (admitPipeRequest_eq_ok h.admitted).2.1 h.amount hempty]
    exact Or.inr ⟨f, rfl, rfl⟩

/-- A send of nothing from nowhere is told the address. -/
theorem Sends.trySendPipe_fault (h : k.Sends id r p n) (hfar : ¬ r.Reaches k.memory n) :
    k.trySendPipe id r = k.fault (.unmapped r.address) := by
  obtain ⟨rfl, hread, -⟩ := PipeRequest.fault_of_not_reaches hfar
  obtain ⟨bytes, -, hread', -⟩ | ⟨f, hread', hreply⟩ := h.trySendPipe_eq
  · cases hread.symm.trans hread'
  · cases hread.symm.trans hread'
    exact hreply

/-- A receive that the check let through unmapped fails. -/
theorem Receives.tryReceivePipe_fault (h : k.Receives id r p n) (hfar : ¬ r.Reaches k.memory n) :
    k.tryReceivePipe id r = k.fault (.unmapped r.address) := by
  obtain ⟨rfl, -, hwrite⟩ := PipeRequest.fault_of_not_reaches hfar
  obtain ⟨m₁, -, hwrite', -⟩ | ⟨f, hwrite', hreply⟩ := h.tryReceivePipe_eq
  · cases hwrite.symm.trans hwrite'
  · cases hwrite.symm.trans hwrite'
    exact hreply

/-! ### Requests that are served -/

section Queued

variable {w : Waiter PipeRequest} {bytes : List UInt8}

/-- A send that the check let through unmapped leaves the buffer alone, and its thread is told. -/
theorem transfer_send_fault (hnext : p.next? k.memory = some (.send w n, p₁)) (hfar : ¬ w.request.Reaches k.memory n) :
    p₁.buffer = p.buffer ∧ ∃ journal, k.transfer p₁ (.send w n) =
      (({ k with journal }).wake w.thread (KernelError.memory (.invalidAddress w.request.address)).code, p₁) := by
  obtain ⟨rfl, hread, -⟩ := PipeRequest.fault_of_not_reaches hfar
  refine ⟨?_, _, completeSend_error p₁ hread⟩
  cases MessagePipe.next_of_next? hnext with
  | send hq ha hm => rfl

/-- A receive that the check let through unmapped leaves the buffer alone, and its thread is told. -/
theorem transfer_receive_fault (hnext : p.next? k.memory = some (.receive w bytes, p₁))
    (hfar : ¬ w.request.Reaches k.memory bytes.length) :
    p₁.buffer = p.buffer ∧ ∃ journal, k.transfer p₁ (.receive w bytes) =
      (({ k with journal }).wake w.thread (KernelError.memory (.invalidAddress w.request.address)).code, p₁) := by
  obtain ⟨hzero, -, hwrite⟩ := PipeRequest.fault_of_not_reaches hfar
  have hbuffer : p₁.buffer = p.buffer := by
    cases MessagePipe.next_of_next? hnext with
    | @receive w rest amount hq ha hm =>
      have hamount : amount = 0 := (PipeRequest.length_take_receiveAmount ha).symm.trans hzero
      exact hamount ▸ List.drop_zero
  obtain rfl := List.eq_nil_of_length_eq_zero hzero
  exact ⟨hbuffer, _, Prod.ext (completeReceive_error p₁.id hwrite) rfl⟩

theorem thread?_transfer_send (hnext : p.next? k.memory = some (.send w n, p₁)) (h : w.request.Reaches k.memory n) :
    (k.transfer p₁ (.send w n)).1.thread? w.thread = (k.thread? w.thread).map (·.woken 0) := by
  cases MessagePipe.next_of_next? hnext with
  | send hq ha hm =>
    obtain ⟨bytes, hread⟩ := (PipeRequest.access_of_reaches hm h).1
    obtain ⟨m', hout⟩ := PipeRequest.writeOptional_of_checkMemory hm (fun _ _ => rfl) (UInt32.ofNat n)
    unfold transfer
    dsimp only
    rw [completeSend_ok _ hread hout, thread?_wake, if_pos rfl]
    rfl

theorem thread?_transfer_receive (hnext : p.next? k.memory = some (.receive w bytes, p₁))
    (h : w.request.Reaches k.memory bytes.length) :
    (k.transfer p₁ (.receive w bytes)).1.thread? w.thread = (k.thread? w.thread).map (·.woken 0) := by
  cases MessagePipe.next_of_next? hnext with
  | @receive w rest amount hq ha hm =>
    have hlen := PipeRequest.length_take_receiveAmount ha
    rw [← hlen] at hm
    obtain ⟨m₁, hwrite⟩ := (PipeRequest.access_of_reaches hm h).2 _ rfl
    obtain ⟨m', hout⟩ := PipeRequest.writeOptional_of_checkMemory hm (Memory.locate_of_writeBytes hwrite)
      (UInt32.ofNat (p.buffer.take amount).length)
    unfold transfer
    dsimp only
    rw [completeReceive_ok _ hwrite hout, thread?_wake, if_pos rfl]
    rfl

end Queued

/-! ### All four paths -/

/-- The number that stands for a result in the register of a thread. -/
def resultCode : Except KernelError Unit → Int32
  | .ok () => 0
  | .error e => e.code

/-- Transfers of `n` bytes for a request that passed the check come to a result: of the calls that try them at once,
also those that would wait, and of a queued request that is served, whose thread is woken with it. -/
structure Concludes (k : Kernel) (r : PipeRequest) (n : Nat) (result : Except KernelError Unit) : Prop where
  send : ∀ id p, k.Sends id r p n → (k.trySendPipe id r).result = result ∧ ∀ timeoutAddress callbacks,
    (k.sendPipe id r timeoutAddress callbacks).result = result.map fun _ => .completed 0
  receive : ∀ id p, k.Receives id r p n → (k.tryReceivePipe id r).result = result ∧ ∀ timeoutAddress callbacks,
    (k.receivePipe id r timeoutAddress callbacks).result = result.map fun _ => .completed 0
  queuedSend : ∀ (p p₁ : MessagePipe) (w : Waiter PipeRequest), w.request = r →
    p.next? k.memory = some (.send w n, p₁) →
    (k.transfer p₁ (.send w n)).1.thread? w.thread = (k.thread? w.thread).map (·.woken (resultCode result))
  queuedReceive : ∀ (p p₁ : MessagePipe) (w : Waiter PipeRequest) (bytes : List UInt8), w.request = r →
    bytes.length = n → p.next? k.memory = some (.receive w bytes, p₁) →
    (k.transfer p₁ (.receive w bytes)).1.thread? w.thread = (k.thread? w.thread).map (·.woken (resultCode result))

/-- Transfers of `n` bytes for a request leave everything alone but the journal, and the thread that is told. -/
structure MovesNothing (k : Kernel) (r : PipeRequest) (n : Nat) : Prop where
  send : ∀ id p, k.Sends id r p n → ∃ journal, (k.trySendPipe id r).kernel = { k with journal }
  receive : ∀ id p, k.Receives id r p n → ∃ journal, (k.tryReceivePipe id r).kernel = { k with journal }
  queuedSend : ∀ (p p₁ : MessagePipe) (w : Waiter PipeRequest), w.request = r →
    p.next? k.memory = some (.send w n, p₁) →
    p₁.buffer = p.buffer ∧ ∃ journal code, k.transfer p₁ (.send w n) = (({ k with journal }).wake w.thread code, p₁)
  queuedReceive : ∀ (p p₁ : MessagePipe) (w : Waiter PipeRequest) (bytes : List UInt8), w.request = r →
    bytes.length = n → p.next? k.memory = some (.receive w bytes, p₁) →
    p₁.buffer = p.buffer ∧ ∃ journal code,
      k.transfer p₁ (.receive w bytes) = (({ k with journal }).wake w.thread code, p₁)

/-- Transfers that reach memory succeed. -/
theorem concludes_of_reaches (h : r.Reaches k.memory n) : k.Concludes r n (.ok ()) where
  send id p hs := by
    obtain ⟨bytes, m', -, hreply⟩ | ⟨f, hread, -⟩ := hs.trySendPipe_eq
    · unfold sendPipe
      rw [hreply]
      exact ⟨rfl, fun _ _ => rfl⟩
    · obtain ⟨bytes, hread'⟩ := (PipeRequest.access_of_reaches hs.checked h).1
      cases hread.symm.trans hread'
  receive id p hr := by
    obtain ⟨m₁, m', -, hreply⟩ | ⟨f, hwrite, -⟩ := hr.tryReceivePipe_eq
    · unfold receivePipe
      rw [hreply]
      exact ⟨rfl, fun _ _ => rfl⟩
    · obtain ⟨m', hwrite'⟩ := (PipeRequest.access_of_reaches hr.checked h).2 _
        (PipeRequest.length_take_receiveAmount hr.amount)
      cases hwrite.symm.trans hwrite'
  queuedSend p p₁ w hw hnext := thread?_transfer_send hnext (hw ▸ h)
  queuedReceive p p₁ w bytes hw hlen hnext := thread?_transfer_receive hnext (hlen ▸ hw ▸ h)

/-- Transfers of nothing to where memory is not mapped fail, though the check has passed. -/
theorem concludes_of_not_reaches (hfar : ¬ r.Reaches k.memory n) :
    k.Concludes r n (.error (.memory (.invalidAddress r.address))) where
  send id p hs := by
    unfold sendPipe
    rw [hs.trySendPipe_fault hfar]
    exact ⟨rfl, fun _ _ => rfl⟩
  receive id p hr := by
    unfold receivePipe
    rw [hr.tryReceivePipe_fault hfar]
    exact ⟨rfl, fun _ _ => rfl⟩
  queuedSend p p₁ w hw hnext := by
    subst hw
    obtain ⟨-, journal, htransfer⟩ := transfer_send_fault hnext hfar
    rw [htransfer, thread?_wake, if_pos rfl]
    rfl
  queuedReceive p p₁ w bytes hw hlen hnext := by
    subst hw hlen
    obtain ⟨-, journal, htransfer⟩ := transfer_receive_fault hnext hfar
    rw [htransfer, thread?_wake, if_pos rfl]
    rfl

/-- Such transfers move nothing. -/
theorem movesNothing_of_not_reaches (hfar : ¬ r.Reaches k.memory n) : k.MovesNothing r n where
  send id p hs := ⟨.faulted (.unmapped r.address) :: k.journal, by rw [hs.trySendPipe_fault hfar]; rfl⟩
  receive id p hr := ⟨.faulted (.unmapped r.address) :: k.journal, by rw [hr.tryReceivePipe_fault hfar]; rfl⟩
  queuedSend p p₁ w hw hnext := by
    subst hw
    obtain ⟨hbuffer, journal, htransfer⟩ := transfer_send_fault hnext hfar
    exact ⟨hbuffer, journal, _, htransfer⟩
  queuedReceive p p₁ w bytes hw hlen hnext := by
    subst hw hlen
    obtain ⟨hbuffer, journal, htransfer⟩ := transfer_receive_fault hnext hfar
    exact ⟨hbuffer, journal, _, htransfer⟩

/-- **The check of a pipe request is enough for all but empty transfers.** For every kernel state, request and amount,
if the check is passed:

* the word for the amount can be written, before the buffer has been written to and after;
* if the transfer moves a byte, or its buffer is mapped, the buffer can be read and written, and the request is
  completed with result 0 wherever it is served;
* else it is a transfer of no bytes whose buffer is not mapped. Reading and writing no bytes there fails, so the request
  fails with the address wherever it is served, and nothing has changed but the journal. -/
theorem checkedTransfers_conclude (k : Kernel) (r : PipeRequest) (n : Nat)
    (hcheck : r.checkMemory k.memory n = .ok ()) :
    (∀ value, ∃ m', k.memory.writeOptional r.outAddress value = .ok m') ∧
    (∀ bytes m', k.memory.writeBytes r.address bytes = .ok m' →
      ∀ value, ∃ m'', m'.writeOptional r.outAddress value = .ok m'') ∧
    (0 < n ∨ k.memory.isValid r.address = true →
      (∃ bytes, k.memory.readBytes r.address n = .ok bytes) ∧
      (∀ bytes : List UInt8, bytes.length = n → ∃ m', k.memory.writeBytes r.address bytes = .ok m') ∧
      k.Concludes r n (.ok ())) ∧
    (¬ (0 < n ∨ k.memory.isValid r.address = true) →
      k.memory.readBytes r.address n = .error (.unmapped r.address) ∧
      (∀ bytes : List UInt8, bytes.length = n → k.memory.writeBytes r.address bytes = .error (.unmapped r.address)) ∧
      k.Concludes r n (.error (.memory (.invalidAddress r.address))) ∧ k.MovesNothing r n) := by
  refine ⟨PipeRequest.writeOptional_of_checkMemory hcheck fun _ _ => rfl, fun bytes m' hwrite =>
    PipeRequest.writeOptional_of_checkMemory hcheck (Memory.locate_of_writeBytes hwrite), fun h => ?_, fun hfar => ?_⟩
  · obtain ⟨hread, hwrite⟩ := PipeRequest.access_of_reaches hcheck h
    exact ⟨hread, hwrite, concludes_of_reaches h⟩
  · obtain ⟨rfl, hread, hwrite⟩ := PipeRequest.fault_of_not_reaches hfar
    refine ⟨hread, fun bytes hempty => ?_, concludes_of_not_reaches hfar, movesNothing_of_not_reaches hfar⟩
    obtain rfl := List.eq_nil_of_length_eq_zero hempty
    exact hwrite

/-- Three threads, and a pipe of four bytes. -/
def threeOnPipe : List Operation :=
  [.syscall (.createThread "first" 0x08900000 32 0x1000 0), .syscall (.createThread "second" 0x08900000 33 0x1000 0),
    .syscall (.createThread "third" 0x08900000 34 0x1000 0), .syscall (.startThread 1 0 0),
    .syscall (.startThread 2 0 0), .syscall (.startThread 3 0 0), .syscall (.createPipe "bytes" 2 0 4), .dispatch]

/-- A request for no bytes at an address that is not mapped. -/
def emptyRequest : PipeRequest := ⟨1, 0, 0, 0⟩

/-- The second thread receives nothing behind the first, which waits for four bytes until the third sends them. -/
def emptyReceiveBehind : List Operation :=
  threeOnPipe ++ [.syscall (.receivePipe 4 ⟨0x08800000, 4, 0, 0⟩ 0 false), .dispatch,
    .syscall (.receivePipe 4 emptyRequest 0 false), .dispatch, .syscall (.trySendPipe 4 ⟨0x08800010, 4, 0, 0⟩)]

/-- The second thread sends nothing behind the first, which waits for room until the third makes it. -/
def emptySendBehind : List Operation :=
  threeOnPipe ++ [.syscall (.trySendPipe 4 ⟨0x08800000, 4, 0, 0⟩), .syscall (.sendPipe 4 ⟨0x08800000, 4, 0, 0⟩ 0 false),
    .dispatch, .syscall (.sendPipe 4 emptyRequest 0 false), .dispatch,
    .syscall (.tryReceivePipe 4 ⟨0x08800010, 4, 0, 0⟩)]

/-- **The check is not enough**: a request that passed it fails on all four paths. -/
theorem checkedTransfers_fault_emptyRequest :
    emptyRequest.checkMemory ((Kernel.new {} {}).run threeOnPipe).memory 0 = .ok () ∧
      (((Kernel.new {} {}).run threeOnPipe).trySendPipe 4 emptyRequest).result = .error (.memory (.invalidAddress 1)) ∧
      (((Kernel.new {} {}).run threeOnPipe).tryReceivePipe 4 emptyRequest).result =
        .error (.memory (.invalidAddress 1)) ∧
      (((Kernel.new {} {}).run emptyReceiveBehind).thread? 1).map (·.wakeResult) = some 0 ∧
      (((Kernel.new {} {}).run emptyReceiveBehind).thread? 2).map (·.wakeResult) =
        some (KernelError.memory (.invalidAddress 1)).code ∧
      (((Kernel.new {} {}).run emptySendBehind).thread? 1).map (·.wakeResult) = some 0 ∧
      (((Kernel.new {} {}).run emptySendBehind).thread? 2).map (·.wakeResult) =
        some (KernelError.memory (.invalidAddress 1)).code := by
  decide +kernel

/-- A send of the last four bytes of main memory passes the check and is completed; one of no bytes from nowhere passes
it and fails. -/
theorem checkedTransfers_conclude_lastBytes :
    (⟨0x09FFFFFC, 4, 0, 0⟩ : PipeRequest).checkMemory ((Kernel.new {} {}).run threeOnPipe).memory 4 = .ok () ∧
      (((Kernel.new {} {}).run threeOnPipe).trySendPipe 4 ⟨0x09FFFFFC, 4, 0, 0⟩).result = .ok () ∧
      emptyRequest.checkMemory ((Kernel.new {} {}).run threeOnPipe).memory 0 = .ok () ∧
      ((Kernel.new {} {}).run threeOnPipe).MovesNothing emptyRequest 0 := by
  have hcheck : (⟨0x09FFFFFC, 4, 0, 0⟩ : PipeRequest).checkMemory ((Kernel.new {} {}).run threeOnPipe).memory 4 =
      .ok () := by decide +kernel
  have hpipe : (((Kernel.new {} {}).run threeOnPipe).admitPipeRequest 4 ⟨0x09FFFFFC, 4, 0, 0⟩).toOption.map
      (fun p => (p.senders, p.sendAmount? ⟨0x09FFFFFC, 4, 0, 0⟩)) = some ([], some 4) := by decide +kernel
  have hempty : emptyRequest.checkMemory ((Kernel.new {} {}).run threeOnPipe).memory 0 = .ok () := by decide +kernel
  have hfar : ¬ (0 < 0 ∨ ((Kernel.new {} {}).run threeOnPipe).memory.isValid emptyRequest.address = true) := by
    decide +kernel
  generalize (Kernel.new {} {}).run threeOnPipe = k at hcheck hpipe hempty hfar ⊢
  cases hfound : k.admitPipeRequest 4 ⟨0x09FFFFFC, 4, 0, 0⟩ with
  | error e =>
    rw [hfound] at hpipe
    cases hpipe
  | ok p =>
    rw [hfound] at hpipe
    obtain ⟨hfirst, hamount⟩ := Prod.mk.inj (Option.some.inj hpipe)
    obtain ⟨-, -, hconcludes⟩ := (checkedTransfers_conclude k _ 4 hcheck).2.2.1 (Or.inl (by decide))
    exact ⟨hcheck, (hconcludes.send 4 p ⟨hfound, hfirst, hamount, hcheck⟩).1, hempty,
      ((checkedTransfers_conclude k emptyRequest 0 hempty).2.2.2 hfar).2.2.2⟩

end Kernel
end GuestKernel
