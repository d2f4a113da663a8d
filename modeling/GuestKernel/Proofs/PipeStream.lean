/-
# A message pipe is a lossless stream of bytes

What is done with the requests on a pipe is written down as passages, in the order in which they are done: that of a
call that need not wait, and those of the queued requests that it lets go on. The bytes of the sends, one after another,
are then the bytes of the receives followed by what the pipe holds.

| operation | passages on the pipe |
| --- | --- |
| a send or a receive | its own, if it need not wait, and those of the requests served after it |
| any other | none: a timeout, the end of a thread, a request that has to wait move no byte |

The account starts anew when the id of the pipe is handed out and when the waits on the pipe are cancelled.

Source: specification, 4.5 and 8.
-/

import GuestKernel.Proofs.ObjectMoves

namespace GuestKernel

/-- How many bytes a served request moves: all that it asks for, or some of them, at least one if it asks for any. -/
def PipeRequest.Served (r : PipeRequest) (n : Nat) : Prop :=
  (r.mode = wholeMode ∧ n = r.size.toNat) ∨ (r.mode = partialMode ∧ n ≤ r.size.toNat ∧ (n = 0 → r.size = 0))

/-- A request that is served moves what it may. -/
theorem PipeRequest.served_of_amount? {r : PipeRequest} {available n : Nat} (h : r.amount? available = some n) :
    r.Served n := by
  unfold amount? at h
  split at h
  · next hmode =>
    split at h
    · cases h
      exact Or.inl ⟨hmode, rfl⟩
    · cases h
  · split at h
    · next hmode =>
      split at h
      · next havailable =>
        cases h
        refine Or.inr ⟨hmode, Nat.min_le_left .., fun hzero => ?_⟩
        rcases havailable with hpos | hsize
        · exact UInt32.toNat_inj.mp (by rw [UInt32.toNat_zero]; omega)
        · exact hsize
      · cases h
    · cases h

/-- What came of a request on a pipe. -/
inductive Outcome where
  | sent (bytes : List UInt8)
  | received (bytes : List UInt8)
  | failed (e : KernelError)

namespace Outcome

/-- What the thread that made the request is told. -/
def result : Outcome → Int32
  | failed e => e.code
  | _ => 0

/-- What an outcome says about guest memory and the bytes in the pipe, before and after. Sent bytes were in the guest's
buffer and are last in the pipe; received bytes were first in the pipe and are in the guest's buffer; their number is as
asked for and is written back. -/
inductive Effect (r : PipeRequest) (m : Memory) (buffer : List UInt8) (m' : Memory) (buffer' : List UInt8) :
    Outcome → Prop where
  | sent {bytes : List UInt8} (hread : m.readBytes r.address bytes.length = .ok bytes)
      (hout : m.writeOptional r.outAddress (UInt32.ofNat bytes.length) = .ok m') (hamount : r.Served bytes.length)
      (hbuffer : buffer' = buffer ++ bytes) : Effect r m buffer m' buffer' (.sent bytes)
  | received {bytes : List UInt8} {m₁ : Memory} (hwrite : m.writeBytes r.address bytes = .ok m₁)
      (hout : m₁.writeOptional r.outAddress (UInt32.ofNat bytes.length) = .ok m') (hamount : r.Served bytes.length)
      (hbuffer : buffer = bytes ++ buffer') : Effect r m buffer m' buffer' (.received bytes)
  | failed {e : KernelError} (hmemory : m' = m) (hbuffer : buffer' = buffer) : Effect r m buffer m' buffer' (.failed e)

end Outcome

namespace PipeRequest

/-- What comes of a send of so many bytes. -/
def sendOutcome (r : PipeRequest) (m : Memory) (amount : Nat) : Outcome :=
  match m.readBytes r.address amount with
  | .ok bytes => .sent bytes
  | .error f => .failed (.memory f.error)

/-- What comes of a receive of these bytes. -/
def receiveOutcome (r : PipeRequest) (m : Memory) (bytes : List UInt8) : Outcome :=
  match m.writeBytes r.address bytes with
  | .ok _ => .received bytes
  | .error f => .failed (.memory f.error)

variable {r : PipeRequest} {m m' : Memory} {p : MessagePipe} {amount : Nat}

/-- A send appends its bytes. -/
theorem effect_send {bytes : List UInt8} (ha : p.sendAmount? r = some amount)
    (hread : m.readBytes r.address amount = .ok bytes)
    (hout : m.writeOptional r.outAddress (UInt32.ofNat amount) = .ok m') :
    (r.sendOutcome m amount).Effect r m p.buffer m' (p.buffer ++ bytes) := by
  have hlen := Memory.length_of_readBytes hread
  rw [sendOutcome, hread]
  subst hlen
  exact .sent hread hout (served_of_amount? ha) rfl

/-- A receive takes its bytes from the front. -/
theorem effect_receive {m₁ : Memory} (ha : p.receiveAmount? r = some amount)
    (hwrite : m.writeBytes r.address (p.buffer.take amount) = .ok m₁)
    (hout : m₁.writeOptional r.outAddress (UInt32.ofNat (p.buffer.take amount).length) = .ok m') :
    (r.receiveOutcome m (p.buffer.take amount)).Effect r m p.buffer m' (p.buffer.drop amount) := by
  rw [receiveOutcome, hwrite]
  refine .received hwrite hout ?_ (List.take_append_drop amount p.buffer).symm
  rw [length_take_receiveAmount ha]
  exact served_of_amount? ha

end PipeRequest

/-- A request that has been dealt with, of a queued thread or of the caller. -/
structure Passage where
  waiter? : Option ThreadId
  request : PipeRequest
  outcome : Outcome

namespace Passage

/-- The bytes that a send has put into the pipe. -/
def sent (e : Passage) : List UInt8 :=
  match e.outcome with
  | .sent bytes => bytes
  | _ => []

/-- The bytes that a receive has got out of the pipe. -/
def received (e : Passage) : List UInt8 :=
  match e.outcome with
  | .received bytes => bytes
  | _ => []

/-- A queued thread is woken with the result; the caller gets it in the reply. -/
def tell (e : Passage) (k : Kernel) : Kernel :=
  match e.waiter? with
  | some id => k.wake id e.outcome.result
  | none => k

/-- A passage takes a kernel and a pipe to others: besides its effect it notes events and tells the thread. A pipe does
not come to hold more than fits. -/
structure LeadsTo (e : Passage) (k : Kernel) (p : MessagePipe) (k' : Kernel) (p' : MessagePipe) : Prop where
  id_eq : p'.id = p.id
  fits : p.buffer.length ≤ p.capacity.toNat → p'.buffer.length ≤ p'.capacity.toNat
  acts : ∃ memory journal, e.outcome.Effect e.request k.memory p.buffer memory p'.buffer ∧
    k' = e.tell { k with memory, journal := journal ++ k.journal }

end Passage

/-- What comes of a queued request. -/
def MessagePipe.Transfer.passage (m : Memory) : Transfer → Passage
  | receive w bytes => ⟨some w.thread, w.request, w.request.receiveOutcome m bytes⟩
  | send w amount => ⟨some w.thread, w.request, w.request.sendOutcome m amount⟩
  | reject w f => ⟨some w.thread, w.request, .failed (.memory f.error)⟩

namespace Kernel

variable {k k₁ k' : Kernel} {p p₁ p' : MessagePipe} {id : ObjectId} {r : PipeRequest} {e : Passage}
  {es es' : List Passage}

/-- Passages one after another take a kernel and a pipe to others. -/
inductive Carries : Kernel → MessagePipe → List Passage → Kernel → MessagePipe → Prop where
  | nil (k : Kernel) (p : MessagePipe) : Carries k p [] k p
  | cons {k k₁ k' : Kernel} {p p₁ p' : MessagePipe} {e : Passage} {es : List Passage} (h : e.LeadsTo k p k₁ p₁)
      (hrest : Carries k₁ p₁ es k' p') : Carries k p (e :: es) k' p'

theorem Carries.id_eq (h : Carries k p es k' p') : p'.id = p.id := by
  induction h with
  | nil => rfl
  | cons h _ ih => exact ih.trans h.id_eq

/-- **No byte is lost, made or moved out of order.** -/
theorem Carries.bytes (h : Carries k p es k' p') :
    p.buffer ++ es.flatMap Passage.sent = es.flatMap Passage.received ++ p'.buffer := by
  induction h with
  | nil => rw [List.flatMap_nil, List.append_nil, List.flatMap_nil, List.nil_append]
  | @cons k k₁ k' p p₁ p' e es h _ ih =>
    obtain ⟨memory, journal, heffect, -⟩ := h.acts
    rw [List.flatMap_cons, List.flatMap_cons]
    unfold Passage.sent Passage.received at ih ⊢
    generalize e.outcome = outcome at heffect
    cases heffect with
    | sent hread hout hamount hbuffer =>
      rw [List.nil_append, ← ih, hbuffer, List.append_assoc]
    | received hwrite hout hamount hbuffer =>
      rw [hbuffer, List.nil_append, List.append_assoc, List.append_assoc, ih]
    | failed hmemory hbuffer =>
      rw [List.nil_append, List.nil_append, ← ih, hbuffer]

/-! ### The passages of an operation -/

/-- The passages of up to `rounds` queued requests, as they are served. -/
def settlePassages (k : Kernel) (p : MessagePipe) : (rounds : Nat) → List Passage
  | 0 => []
  | n + 1 =>
    match p.next? k.memory with
    | none => []
    | some (t, p₁) => t.passage k.memory :: (k.transfer p₁ t).1.settlePassages (k.transfer p₁ t).2 n

/-- The passages of a send and of the requests served after it. -/
def sendPassages (k : Kernel) (id : ObjectId) (r : PipeRequest) : List Passage :=
  match k.admitPipeRequest id r with
  | .error _ => []
  | .ok p =>
    match (if p.senders.isEmpty then p.sendAmount? r else none) with
    | none => []
    | some amount =>
      match r.checkMemory k.memory amount with
      | .error f => [⟨none, r, .failed (.memory f.error)⟩]
      | .ok () =>
        ⟨none, r, r.sendOutcome k.memory amount⟩ ::
          match k.memory.readBytes r.address amount, k.memory.writeOptional r.outAddress (UInt32.ofNat amount) with
          | .ok bytes, .ok memory =>
            ({ k with memory }).settlePassages (p.push bytes) (p.senders.length + p.receivers.length)
          | _, _ => []

/-- The passages of a receive and of the requests served after it. -/
def receivePassages (k : Kernel) (id : ObjectId) (r : PipeRequest) : List Passage :=
  match k.admitPipeRequest id r with
  | .error _ => []
  | .ok p =>
    match (if p.receivers.isEmpty then p.receiveAmount? r else none) with
    | none => []
    | some amount =>
      match r.checkMemory k.memory amount with
      | .error f => [⟨none, r, .failed (.memory f.error)⟩]
      | .ok () =>
        let bytes := p.buffer.take amount
        ⟨none, r, r.receiveOutcome k.memory bytes⟩ ::
          match k.memory.writeBytes r.address bytes with
          | .error _ => []
          | .ok memory =>
            match memory.writeOptional r.outAddress (UInt32.ofNat bytes.length) with
            | .error _ => []
            | .ok memory =>
              ({ k with memory }).settlePassages (p.drop amount) (p.senders.length + p.receivers.length)

/-- The passages on a pipe that an operation brings about. -/
def passages (k : Kernel) (id : ObjectId) : Operation → List Passage
  | .syscall (.sendPipe x r ..) | .syscall (.trySendPipe x r) => if x = id then k.sendPassages x r else []
  | .syscall (.receivePipe x r ..) | .syscall (.tryReceivePipe x r) => if x = id then k.receivePassages x r else []
  | _ => []

/-- Whether the account of a pipe starts anew: its id is handed out, or the waits on it are cancelled. -/
def renews (k : Kernel) (id : ObjectId) (o : Operation) : Bool :=
  (id = k.nextId && (k.after o).nextId ≠ k.nextId) ||
    match o with
    | .syscall (.cancelPipe x ..) => x = id
    | _ => false

/-- The passages on a pipe since its account started, after further operations. -/
def history (k : Kernel) (id : ObjectId) (es : List Passage) : List Operation → List Passage
  | [] => es
  | o :: rest => (k.after o).history id (if k.renews id o then [] else es ++ k.passages id o) rest

/-! ### Transfers -/

section Complete

variable {w : Waiter PipeRequest} {amount : Nat} {bytes : List UInt8} {m₁ m' : Memory} {f : Fault}

/-- A queued receive that succeeds. -/
theorem completeReceive_ok (pipe : ObjectId) (hwrite : k.memory.writeBytes w.request.address bytes = .ok m₁)
    (hout : m₁.writeOptional w.request.outAddress (UInt32.ofNat bytes.length) = .ok m') :
    k.completeReceive pipe w bytes =
      (({ k with memory := m' }).note (.received pipe w.thread bytes.length)).wake w.thread 0 := by
  unfold completeReceive
  rw [hwrite]
  dsimp only
  rw [hout]

/-- A queued receive whose buffer cannot be written. -/
theorem completeReceive_error (pipe : ObjectId) (hwrite : k.memory.writeBytes w.request.address bytes = .error f) :
    k.completeReceive pipe w bytes =
      (k.noteAll [.faulted f, .receiveFailed pipe w.request.address (.memory f.error),
        .received pipe w.thread bytes.length]).wake w.thread (KernelError.memory f.error).code := by
  unfold completeReceive
  rw [hwrite]
  rfl

/-- A queued send that succeeds. -/
theorem completeSend_ok (p : MessagePipe) (hread : k.memory.readBytes w.request.address amount = .ok bytes)
    (hout : k.memory.writeOptional w.request.outAddress (UInt32.ofNat amount) = .ok m') :
    k.completeSend p w amount =
      ((({ k with memory := m' }).note (.sent p.id w.thread amount)).wake w.thread 0, p.push bytes) := by
  unfold completeSend
  rw [hread]
  dsimp only
  rw [hout]

/-- A queued send whose buffer cannot be read. -/
theorem completeSend_error (p : MessagePipe) (hread : k.memory.readBytes w.request.address amount = .error f) :
    k.completeSend p w amount =
      ((k.noteAll [.faulted f, .sendFailed p.id w.request.address f.error, .sent p.id w.thread amount]).wake w.thread
        (KernelError.memory f.error).code, p) := by
  unfold completeSend
  rw [hread]
  rfl

end Complete

/-- Serving one queued request. -/
theorem leadsTo_transfer {t : MessagePipe.Transfer} (h : p.Next k.memory t p₁) :
    (t.passage k.memory).LeadsTo k p (k.transfer p₁ t).1 (k.transfer p₁ t).2 := by
  cases h with
  | @receive w rest amount hq ha hm =>
    have hlen := PipeRequest.length_take_receiveAmount ha
    unfold MessagePipe.Transfer.passage transfer
    dsimp only
    refine ⟨rfl, p.length_drop_le amount, ?_⟩
    obtain ⟨m₁, m', hwrite, hout⟩ | ⟨f, hempty, hwrite⟩ := PipeRequest.write_cases (hlen.symm ▸ hm)
    · have heffect := PipeRequest.effect_receive ha hwrite hout
      rw [completeReceive_ok p.id hwrite hout]
      rw [PipeRequest.receiveOutcome, hwrite] at heffect ⊢
      exact ⟨m', [.received p.id w.thread (p.buffer.take amount).length], heffect, rfl⟩
    · have hbuffer : p.buffer.drop amount = p.buffer := by
        rw [hempty, List.length_nil] at hlen
        rw [← hlen, List.drop_zero]
      rw [completeReceive_error p.id hwrite, PipeRequest.receiveOutcome, hwrite]
      exact ⟨k.memory, _, .failed rfl hbuffer, rfl⟩
  | rejectReceiver hq ha hm => exact ⟨rfl, id, k.memory, [_, _], .failed rfl rfl, rfl⟩
  | @send w rest amount hq ha hm =>
    unfold MessagePipe.Transfer.passage transfer
    dsimp only
    obtain ⟨bytes, m', hread, hout⟩ | ⟨f, -, hread⟩ := PipeRequest.read_cases hm
    · have heffect := PipeRequest.effect_send ha hread hout
      rw [completeSend_ok _ hread hout]
      rw [PipeRequest.sendOutcome, hread] at heffect ⊢
      exact ⟨rfl, p.length_append_le (PipeRequest.length_le_room ha hread), m', [.sent p.id w.thread amount], heffect,
        rfl⟩
    · rw [completeSend_error _ hread, PipeRequest.sendOutcome, hread]
      exact ⟨rfl, id, k.memory, _, .failed rfl rfl, rfl⟩
  | rejectSender hq ha hm => exact ⟨rfl, id, k.memory, [_, _], .failed rfl rfl, rfl⟩

/-- Serving queued requests, one after another. -/
theorem carries_settleFor (k : Kernel) (p : MessagePipe) (rounds : Nat) :
    k.Carries p (k.settlePassages p rounds) (k.settleFor p rounds).1 (k.settleFor p rounds).2 := by
  induction rounds generalizing k p with
  | zero => exact .nil k p
  | succ n ih =>
    unfold settleFor settlePassages
    cases hn : p.next? k.memory with
    | none => exact .nil k p
    | some found =>
      obtain ⟨t, p₁⟩ := found
      exact .cons (leadsTo_transfer (MessagePipe.next_of_next? hn)) (ih (k.transfer p₁ t).1 (k.transfer p₁ t).2)

/-- Passages are all that a call does: the caller's own comes first and says what the reply is, and the pipe is stored at
the end. -/
def Conducts {α : Type} (k : Kernel) (p : MessagePipe) (r : PipeRequest) (es : List Passage) (reply : Reply α) : Prop :=
  ∃ k' p', k.Carries p es k' p' ∧ reply.kernel = k'.put (.messagePipe p') ∧
    ∃ outcome, es.head? = some ⟨none, r, outcome⟩ ∧ ∀ err, reply.result = .error err ↔ outcome = .failed err

/-- A call that only finds out that it has to fail. -/
theorem conducts_fault {f : Fault} (hget : k.objects.get? p.id = some (.messagePipe p)) :
    k.Conducts p r [⟨none, r, .failed (.memory f.error)⟩] (k.fault f : Reply Unit) := by
  have hleads : Passage.LeadsTo ⟨none, r, .failed (.memory f.error)⟩ k p (k.note (.faulted f)) p :=
    ⟨rfl, fun h => h, k.memory, [.faulted f], .failed rfl rfl, rfl⟩
  refine ⟨k.note (.faulted f), p, .cons hleads (.nil _ _), ?_, _, rfl, fun err => ?_⟩
  · exact (put_self (k := k.note (.faulted f)) (o := .messagePipe p) hget).symm
  · simp [fault, refuse]

/-- A call that goes through, and the pipe is settled. -/
theorem conducts_settle {outcome : Outcome} {memory : Memory} {buffer : List UInt8}
    (heffect : outcome.Effect r k.memory p.buffer memory buffer)
    (hfits : p.buffer.length ≤ p.capacity.toNat → buffer.length ≤ p.capacity.toNat)
    (houtcome : ∀ err, outcome ≠ .failed err) :
    k.Conducts p r (⟨none, r, outcome⟩ :: ({ k with memory }).settlePassages { p with buffer }
      (p.senders.length + p.receivers.length)) ((({ k with memory }).settle { p with buffer }).done ()) := by
  have hleads : Passage.LeadsTo ⟨none, r, outcome⟩ k p { k with memory } { p with buffer } :=
    ⟨rfl, hfits, memory, [], heffect, rfl⟩
  refine ⟨_, _, .cons hleads (carries_settleFor _ _ _), rfl, _, rfl, fun err => ?_⟩
  exact ⟨nofun, fun h => absurd h (houtcome err)⟩

/-- A call on a pipe is refused, or its passages are all that it does. -/
def Tries {α : Type} (k : Kernel) (id : ObjectId) (r : PipeRequest) (es : List Passage) (reply : Reply α) : Prop :=
  (es = [] ∧ ∃ err, reply = k.refuse err) ∨ ∃ p, k.objects.messagePipe? id = some p ∧ k.Conducts p r es reply

theorem Tries.map {α β : Type} {reply : Reply α} (h : k.Tries id r es reply) (f : α → β) :
    k.Tries id r es (reply.map f) := by
  obtain ⟨hempty, err, rfl⟩ | ⟨p, hp, k', p', hcarries, hkernel, outcome, hhead, herror⟩ := h
  · exact Or.inl ⟨hempty, err, rfl⟩
  · refine Or.inr ⟨p, hp, k', p', hcarries, hkernel, outcome, hhead, fun err => Iff.trans ?_ (herror err)⟩
    unfold Reply.map
    cases reply.result <;> simp [Except.map]

/-- A tried send is refused, or its passages are all that it does. -/
theorem tries_trySendPipe (k : Kernel) (id : ObjectId) (r : PipeRequest) :
    k.Tries id r (k.sendPassages id r) (k.trySendPipe id r) := by
  unfold trySendPipe sendPassages
  cases hadmitted : k.admitPipeRequest id r with
  | error err => exact Or.inl ⟨rfl, err, rfl⟩
  | ok p =>
    obtain ⟨rfl, hget, -⟩ := admitPipeRequest_eq_ok hadmitted
    dsimp only
    cases hamount : (if p.senders.isEmpty then p.sendAmount? r else none) with
    | none => exact Or.inl ⟨rfl, _, rfl⟩
    | some amount =>
      have ha : p.sendAmount? r = some amount := by
        split at hamount
        · exact hamount
        · cases hamount
      refine Or.inr ⟨p, ObjectTable.messagePipe?_eq_some.mpr hget, ?_⟩
      dsimp only
      cases hcheck : r.checkMemory k.memory amount with
      | error f => exact conducts_fault hget
      | ok u =>
        dsimp only
        obtain ⟨bytes, m', hread, hout⟩ | ⟨f, -, hread⟩ := PipeRequest.read_cases hcheck
        · have heffect := PipeRequest.effect_send ha hread hout
          rw [PipeRequest.sendOutcome, hread] at heffect ⊢
          rw [hout]
          exact conducts_settle heffect (p.length_append_le (PipeRequest.length_le_room ha hread)) nofun
        · rw [PipeRequest.sendOutcome, hread]
          exact conducts_fault hget

/-- A tried receive is refused, or its passages are all that it does. -/
theorem tries_tryReceivePipe (k : Kernel) (id : ObjectId) (r : PipeRequest) :
    k.Tries id r (k.receivePassages id r) (k.tryReceivePipe id r) := by
  unfold tryReceivePipe receivePassages
  cases hadmitted : k.admitPipeRequest id r with
  | error err => exact Or.inl ⟨rfl, err, rfl⟩
  | ok p =>
    obtain ⟨rfl, hget, -⟩ := admitPipeRequest_eq_ok hadmitted
    dsimp only
    cases hamount : (if p.receivers.isEmpty then p.receiveAmount? r else none) with
    | none => exact Or.inl ⟨rfl, _, rfl⟩
    | some amount =>
      have ha : p.receiveAmount? r = some amount := by
        split at hamount
        · exact hamount
        · cases hamount
      have hlen := PipeRequest.length_take_receiveAmount ha
      refine Or.inr ⟨p, ObjectTable.messagePipe?_eq_some.mpr hget, ?_⟩
      dsimp only
      cases hcheck : r.checkMemory k.memory amount with
      | error f => exact conducts_fault hget
      | ok u =>
        dsimp only
        obtain ⟨m₁, m', hwrite, hout⟩ | ⟨f, hempty, hwrite⟩ := PipeRequest.write_cases (hlen.symm ▸ hcheck)
        · have heffect := PipeRequest.effect_receive ha hwrite hout
          rw [PipeRequest.receiveOutcome, hwrite] at heffect ⊢
          dsimp only
          rw [hout]
          exact conducts_settle heffect (p.length_drop_le amount) nofun
        · rw [PipeRequest.receiveOutcome, hwrite]
          dsimp only
          rw [put_drop hget ha hempty]
          exact conducts_fault hget

end Kernel

/-! ### Operations without passages -/

/-- The label of a move that leaves the bytes in a pipe alone. -/
def Label.Spares (id : ObjectId) : Label → Prop
  | change o _ => o.kind = .messagePipe → o.id ≠ id
  | _ => True

theorem Label.IsRoutine.spares {l : Label} (h : l.IsRoutine) (id : ObjectId) : l.Spares id := by
  cases l with
  | change o o' =>
    intro hkind
    rcases h with hk | hk <;> rw [hkind] at hk <;> cases hk
  | _ => trivial

theorem Operation.Touches.spares {o : Operation} {l : Label} (h : o.Touches l) {id : ObjectId}
    (ho : o.object? ≠ some (.messagePipe, id)) : l.Spares id := by
  have hnot := h.not_changes ho nofun nofun
  cases l with
  | change => exact fun hkind hid => hnot ⟨hkind, hid⟩
  | _ => trivial

/-- Who enters or leaves the queues of a pipe takes no byte along. -/
theorem Object.Step.buffer_eq {l : Label} {o : Object} {p' : MessagePipe} (h : o.Step l (.messagePipe p'))
    (hl : l.Spares p'.id) : ∃ p, o = .messagePipe p ∧ p.buffer = p'.buffer := by
  have hkind := h.kind_eq
  obtain ⟨p, rfl⟩ : ∃ p, o = .messagePipe p := by
    cases o <;> first | exact ⟨_, rfl⟩ | cases hkind
  refine ⟨p, rfl, ?_⟩
  generalize hp' : Object.messagePipe p' = o' at h
  cases h with
  | same => cases hp'; rfl
  | change hlabel hc =>
    subst hp' hlabel
    exact absurd hc.id_eq.symm (hl rfl)
  | enqueue hlabel hq =>
    subst hp'
    cases hq <;> rfl
  | leave =>
    simp only [Object.removeWaiter] at hp'
    split at hp' <;> cases hp' <;> rfl

namespace Moves

variable {A : Label → Prop} {s s' : Stage} {id : ObjectId} {p' : MessagePipe}

/-- Without an object made the next id stays. -/
theorem nextId_eq (hA : ∀ x, ¬ A (.create x)) (h : Moves A s s') : s'.kernel.nextId = s.kernel.nextId := by
  refine h.preserves (P := fun s₁ => s₁.kernel.nextId = s.kernel.nextId) (fun l s₁ s₂ hl hm h₁ => ?_) rfl
  obtain heq | ⟨o, rfl, -⟩ := hm.nextId
  · exact heq.trans h₁
  · exact absurd hl (hA o)

/-- Moves that spare a pipe, and make no object under its id, move no byte. -/
theorem buffer_eq (hA : ∀ l, A l → l.Spares id) (hcreate : ∀ x, A (.create x) → x.id ≠ id) (h : Moves A s s')
    (hp' : s'.kernel.objects.messagePipe? id = some p') :
    ∃ p, s.kernel.objects.messagePipe? id = some p ∧ p.buffer = p'.buffer := by
  refine h.preserves (P := fun s₁ => ∀ p', s₁.kernel.objects.messagePipe? id = some p' →
    ∃ p, s.kernel.objects.messagePipe? id = some p ∧ p.buffer = p'.buffer) (fun l s₁ s₂ hl hm h₁ p₂ hp₂ => ?_)
    (fun p hp => ⟨p, hp, rfl⟩) p' hp'
  have hget := ObjectTable.messagePipe?_eq_some.mp hp₂
  have hid : p₂.id = id := ObjectTable.id_of_get? hget
  obtain ⟨o, ho, hstep⟩ | ⟨rfl, -⟩ := hm.object hget nofun
  · obtain ⟨p₁, rfl, hbuffer⟩ := hstep.buffer_eq (hid ▸ hA l hl)
    obtain ⟨p, hp, heq⟩ := h₁ p₁ (ObjectTable.messagePipe?_eq_some.mpr ho)
    exact ⟨p, hp, heq.trans hbuffer⟩
  · exact absurd hid (hcreate _ hl)

/-- Moves that spare a pipe, and hand out its id, leave it empty. -/
theorem buffer_new (hA : ∀ l, A l → l.Spares id) (h : Moves A s s') (hid : s.kernel.nextId = id)
    (hnext : s'.kernel.nextId ≠ id) (hp' : s'.kernel.objects.messagePipe? id = some p') : p'.buffer = [] := by
  refine h.preserves (P := fun s₁ => s₁.kernel.nextId ≠ id → ∀ p', s₁.kernel.objects.messagePipe? id = some p' →
    p'.buffer = []) (fun l s₁ s₂ hl hm h₁ hne p₂ hp₂ => ?_) (fun hne => absurd hid hne) hnext p' hp'
  have hget := ObjectTable.messagePipe?_eq_some.mp hp₂
  have hpid : p₂.id = id := ObjectTable.id_of_get? hget
  obtain heq | ⟨o, rfl, -⟩ := hm.nextId
  · obtain ⟨o, ho, hstep⟩ | ⟨-, hnew, -⟩ := hm.object hget nofun
    · obtain ⟨p₁, rfl, hbuffer⟩ := hstep.buffer_eq (hpid ▸ hA l hl)
      rw [← hbuffer]
      exact h₁ (heq ▸ hne) p₁ (ObjectTable.messagePipe?_eq_some.mpr ho)
    · exact hnew.1
  · cases hm with
    | @create k L o ho hnew =>
      replace hget : (k.objects.skipId.put o).get? id = some (.messagePipe p₂) := hget
      rw [ObjectTable.get?_put] at hget
      split at hget
      · cases hget
        exact hnew.1
      · next hoid =>
        exact h₁ (fun hk => hoid (ho.trans hk)) p₂ (ObjectTable.messagePipe?_eq_some.mpr hget)

end Moves

namespace Kernel

variable {k : Kernel} {p p' : MessagePipe} {id : ObjectId} {r : PipeRequest} {o : Operation} {es : List Passage}

/-- A pipe whose waits have been cancelled is empty, whether or not the call went on to fail. -/
theorem buffer_cancelPipe {sendersAddress receiversAddress : UInt32}
    (hp' : (k.cancelPipe id sendersAddress receiversAddress).kernel.objects.messagePipe? id = some p') :
    p'.buffer = [] := by
  unfold cancelPipe at hp'
  cases hp : k.objects.messagePipe? id with
  | none =>
    rw [hp] at hp'
    have hsome : k.objects.messagePipe? id = some p' := hp'
    rw [hp] at hsome
    cases hsome
  | some p =>
    have hid : p.id = id := ObjectTable.id_of_get? (ObjectTable.messagePipe?_eq_some.mp hp)
    rw [hp] at hp'
    dsimp only at hp'
    generalize hk₁ : k.put (.messagePipe p.reset) = k₁ at hp'
    have hreset : k₁.objects.get? id = some (.messagePipe p.reset) := by
      rw [← hk₁]
      exact (ObjectTable.get?_put ..).trans (if_pos hid)
    -- What follows writes to guest memory and wakes threads.
    have hwrite := fun (k₂ : Kernel) m => (Quiet.withMemory k₂ m).onlyThreads
    have hget : k₁.objects.get? id = some (.messagePipe p') := by
      refine OnlyThreads.get?_eq ?_ (ObjectTable.messagePipe?_eq_some.mp hp') nofun
      refine (hwrite k₁ _).andThen fun _ k₂ => (hwrite k₂ _).andThen fun _ k₃ => ?_
      exact onlyThreads_wakeAll ..
    rw [hreset, Option.some.injEq, Object.messagePipe.injEq] at hget
    rw [← hget]
    rfl

/-- A request that has to wait moves no byte. -/
theorem buffer_blockOnPipe (timeoutAddress : UInt32) (callbacks sending : Bool)
    (hadmitted : k.admitPipeRequest id r = .ok p) (hs : sending = true → p.senders = [] → p.sendAmount? r = none)
    (hr : sending = false → p.receivers = [] → p.receiveAmount? r = none)
    (hp' : (k.blockOnPipe id r timeoutAddress callbacks sending).kernel.objects.messagePipe? id = some p') :
    ∃ p, k.objects.messagePipe? id = some p ∧ p.buffer = p'.buffer := by
  have hroutine : ∀ l : Label, l.IsRoutine → l.Spares id ∧ ∀ x, l ≠ .create x := by
    intro l hl
    refine ⟨hl.spares id, ?_⟩
    rintro x rfl
    exact hl
  have hplain : ∀ l : Label, l.IsPlain → l.Spares id ∧ ∀ x, l ≠ .create x := fun l hl => hroutine l hl.isRoutine
  have hblocks := Moves.blockOnPipe hplain (fun _ => ⟨trivial, fun _ h => Label.noConfusion h⟩) r timeoutAddress
    callbacks sending hadmitted hs hr
  have hmoves := hblocks.moves hplain fun thread w _ => hroutine (.park thread w) trivial
  exact hmoves.buffer_eq (fun l hl => hl.1) (fun x hx => absurd rfl (hx.2 x)) hp'

/-- An operation on an object hands out no id. -/
theorem nextId_after (hn : k.started.Nodup) {on : ObjectKind × ObjectId} (ho : o.object? = some on) :
    (k.after o).nextId = k.nextId := by
  obtain ⟨-, L, hmoves, -⟩ := moves_after k o hn
  refine hmoves.nextId_eq fun x hx => ?_
  cases hx with
  | touch htouch => exact o.not_touches_create x htouch
  | create hnone =>
    rw [ho] at hnone
    cases hnone

/-- A pipe whose account starts anew is empty. -/
theorem buffer_of_renews (hn : k.started.Nodup) (h : k.renews id o = true)
    (hp' : (k.after o).objects.messagePipe? id = some p') : p'.buffer = [] := by
  unfold renews at h
  rw [Bool.or_eq_true, Bool.and_eq_true, decide_eq_true_eq, decide_eq_true_eq] at h
  obtain ⟨rfl, hnext⟩ | h := h
  · obtain ⟨-, L, hmoves, -⟩ := moves_after k o hn
    refine hmoves.buffer_new (fun l hl => ?_) rfl hnext hp'
    cases hl with
    | touch htouch => exact htouch.spares fun ho => hnext (nextId_after hn ho)
    | create => trivial
  · split at h
    · cases of_decide_eq_true h
      exact buffer_cancelPipe hp'
    · cases h

/-- An operation on other objects moves no byte. -/
theorem buffer_after (hn : k.started.Nodup) (ho : o.object? ≠ some (.messagePipe, id)) (h : k.renews id o = false)
    (hp' : (k.after o).objects.messagePipe? id = some p') :
    ∃ p, k.objects.messagePipe? id = some p ∧ p.buffer = p'.buffer := by
  obtain ⟨-, L, hmoves, -⟩ := moves_after k o hn
  refine hmoves.buffer_eq (fun l hl => ?_) (fun x hx => ?_) hp'
  · cases hl with
    | touch htouch => exact htouch.spares ho
    | create => trivial
  · intro hid
    obtain ⟨hx, hafter, -⟩ := hx.created
    have hnext : (k.after o).nextId ≠ k.nextId := by
      rw [hafter]
      simp
    have hrenews : k.renews id o = true := by
      unfold renews
      rw [Bool.or_eq_true, Bool.and_eq_true, decide_eq_true_eq, decide_eq_true_eq]
      exact Or.inl ⟨hid.symm.trans hx, hnext⟩
    rw [h] at hrenews
    cases hrenews

/-! ### The account of a run -/

end Kernel

/-- The request of a call that sends or receives. -/
def Syscall.pipeRequest? : Syscall → Option (ObjectId × PipeRequest)
  | sendPipe id r .. | trySendPipe id r | receivePipe id r .. | tryReceivePipe id r => some (id, r)
  | _ => none

namespace Kernel

variable {k : Kernel} {p p' : MessagePipe} {id : ObjectId} {r : PipeRequest} {o : Operation} {es : List Passage}

/-- Passages account for what an operation does to a pipe. If there are some, the operation is a call on the pipe that
does nothing else; if there are none, the pipe keeps its bytes. -/
structure Accounts (k : Kernel) (id : ObjectId) (o : Operation) (es : List Passage) : Prop where
  busy : es ≠ [] → ∃ call r p, o = .syscall call ∧ call.pipeRequest? = some (id, r) ∧
    k.objects.messagePipe? id = some p ∧ k.Conducts p r es (k.perform call)
  idle : es = [] → k.renews id o = false → ∀ p', (k.after o).objects.messagePipe? id = some p' →
    ∃ p, k.objects.messagePipe? id = some p ∧ p.buffer = p'.buffer

/-- A call that is tried at once and no more. -/
theorem Tries.accounts {call : Syscall} (h : k.Tries id r es (k.perform call))
    (hrequest : call.pipeRequest? = some (id, r)) : k.Accounts id (.syscall call) es where
  busy hne := by
    obtain ⟨hempty, -⟩ | ⟨p, hp, hconducts⟩ := h
    · exact absurd hempty hne
    · exact ⟨call, r, p, rfl, hrequest, hp, hconducts⟩
  idle hempty _ p' hp' := by
    obtain ⟨-, err, hreply⟩ | ⟨p, -, k', p', -, -, outcome, hhead, -⟩ := h
    · replace hp' : (k.perform call).kernel.objects.messagePipe? id = some p' := hp'
      rw [hreply] at hp'
      exact ⟨p', hp', rfl⟩
    · rw [hempty] at hhead
      cases hhead

/-- A send is tried, and waits if there is no room. -/
theorem sendPipe_cases (k : Kernel) (id : ObjectId) (r : PipeRequest) (timeoutAddress : UInt32) (callbacks : Bool) :
    k.sendPipe id r timeoutAddress callbacks = (k.trySendPipe id r).map (fun _ => .completed 0) ∨
      (k.sendPassages id r = [] ∧ ∀ p', (k.sendPipe id r timeoutAddress callbacks).kernel.objects.messagePipe? id =
        some p' → ∃ p, k.objects.messagePipe? id = some p ∧ p.buffer = p'.buffer) := by
  unfold sendPipe
  split
  · next k' hfull =>
    obtain ⟨rfl, p, hadmitted, hs⟩ := trySendPipe_full hfull
    refine Or.inr ⟨?_, fun p' hp' => buffer_blockOnPipe timeoutAddress callbacks true hadmitted (fun _ => hs) nofun hp'⟩
    unfold sendPassages
    rw [hadmitted]
    dsimp only
    split
    · rfl
    · next amount hamount =>
      split at hamount
      · next hempty =>
        rw [hs (List.isEmpty_iff.mp hempty)] at hamount
        cases hamount
      · cases hamount
  · exact Or.inl rfl

/-- A receive is tried, and waits if there are no bytes. -/
theorem receivePipe_cases (k : Kernel) (id : ObjectId) (r : PipeRequest) (timeoutAddress : UInt32) (callbacks : Bool) :
    k.receivePipe id r timeoutAddress callbacks = (k.tryReceivePipe id r).map (fun _ => .completed 0) ∨
      (k.receivePassages id r = [] ∧ ∀ p', (k.receivePipe id r timeoutAddress callbacks).kernel.objects.messagePipe? id =
        some p' → ∃ p, k.objects.messagePipe? id = some p ∧ p.buffer = p'.buffer) := by
  unfold receivePipe
  split
  · next k' hfull =>
    obtain ⟨rfl, p, hadmitted, hr⟩ := tryReceivePipe_empty hfull
    refine Or.inr ⟨?_, fun p' hp' => buffer_blockOnPipe timeoutAddress callbacks false hadmitted nofun (fun _ => hr) hp'⟩
    unfold receivePassages
    rw [hadmitted]
    dsimp only
    split
    · rfl
    · next amount hamount =>
      split at hamount
      · next hempty =>
        rw [hr (List.isEmpty_iff.mp hempty)] at hamount
        cases hamount
      · cases hamount
  · exact Or.inl rfl

/-- **Every operation does to a pipe what its passages say, and no more.** -/
theorem accounts_passages (hn : k.started.Nodup) (id : ObjectId) (o : Operation) :
    k.Accounts id o (k.passages id o) := by
  by_cases ho : o.object? = some (.messagePipe, id)
  · cases o with
    | syscall call =>
      cases call with
      | sendPipe x r timeoutAddress callbacks =>
        cases ho
        rw [passages, if_pos rfl]
        obtain htry | ⟨hempty, hbuffer⟩ := sendPipe_cases k id r timeoutAddress callbacks
        · refine Tries.accounts (r := r) (Tries.map ?_ Answer.outcome) rfl
          rw [htry]
          exact (tries_trySendPipe k id r).map _
        · exact ⟨fun hne => absurd hempty hne, fun _ _ => hbuffer⟩
      | trySendPipe x r =>
        cases ho
        rw [passages, if_pos rfl]
        exact ((tries_trySendPipe k id r).map _).accounts rfl
      | receivePipe x r timeoutAddress callbacks =>
        cases ho
        rw [passages, if_pos rfl]
        obtain htry | ⟨hempty, hbuffer⟩ := receivePipe_cases k id r timeoutAddress callbacks
        · refine Tries.accounts (r := r) (Tries.map ?_ Answer.outcome) rfl
          rw [htry]
          exact (tries_tryReceivePipe k id r).map _
        · exact ⟨fun hne => absurd hempty hne, fun _ _ => hbuffer⟩
      | tryReceivePipe x r =>
        cases ho
        rw [passages, if_pos rfl]
        exact ((tries_tryReceivePipe k id r).map _).accounts rfl
      | cancelPipe x sendersAddress receiversAddress =>
        cases ho
        refine ⟨fun hne => absurd rfl hne, fun _ hrenews => ?_⟩
        simp [renews] at hrenews
      | _ => cases ho
    | _ => cases ho
  · have hempty : k.passages id o = [] := by
      unfold passages
      split <;> first | rfl | exact if_neg fun hx => ho (by rw [← hx]; rfl)
    rw [hempty]
    exact ⟨fun hne => absurd rfl hne, fun _ hrenews p' hp' => buffer_after hn ho hrenews hp'⟩

/-- The bytes sent are the bytes received and those in the pipe. -/
def Streams (k : Kernel) (id : ObjectId) (es : List Passage) : Prop :=
  ∀ p, k.objects.messagePipe? id = some p → es.flatMap Passage.sent = es.flatMap Passage.received ++ p.buffer

/-- An operation adds its passages to those of the pipe, unless the pipe is emptied or another. -/
theorem Streams.after (h : k.Streams id es) (hn : k.started.Nodup) (o : Operation) :
    (k.after o).Streams id (if k.renews id o then [] else es ++ k.passages id o) := by
  intro p' hp'
  by_cases hrenews : k.renews id o = true
  · rw [if_pos hrenews, buffer_of_renews hn hrenews hp']
    rfl
  rw [if_neg hrenews, List.flatMap_append, List.flatMap_append]
  have haccounts := accounts_passages hn id o
  by_cases hempty : k.passages id o = []
  · obtain ⟨p, hp, hbuffer⟩ := haccounts.idle hempty (Bool.eq_false_iff.mpr hrenews) p' hp'
    rw [hempty, List.flatMap_nil, List.flatMap_nil, List.append_nil, List.append_nil, ← hbuffer]
    exact h p hp
  · obtain ⟨call, r, p, rfl, -, hp, k₁, p₁, hcarries, hkernel, -⟩ := haccounts.busy hempty
    have hid : p₁.id = id := hcarries.id_eq.trans (ObjectTable.id_of_get? (ObjectTable.messagePipe?_eq_some.mp hp))
    have hget : (k.after (.syscall call)).objects.get? id = some (.messagePipe p₁) := by
      show (k.perform call).kernel.objects.get? id = _
      rw [hkernel]
      exact (ObjectTable.get?_put ..).trans (if_pos hid)
    rw [ObjectTable.messagePipe?_eq_some.mpr hget, Option.some.injEq] at hp'
    rw [← hp', List.append_assoc, ← hcarries.bytes, h p hp, List.append_assoc]

/-- A run adds its passages to those of the pipe. -/
theorem Streams.run (h : k.Streams id es) (hn : k.started.Nodup) (operations : List Operation) :
    (k.run operations).Streams id (k.history id es operations) := by
  induction operations generalizing k es with
  | nil => exact h
  | cons o rest ih => exact ih (h.after hn o) (nodup_started_after o hn)

end Kernel

namespace Object

/-- A pipe holds no more bytes than it has room for. -/
def Fits : Object → Prop
  | messagePipe p => p.buffer.length ≤ p.capacity.toNat
  | _ => True

theorem IsNew.fits {o : Object} (h : o.IsNew) : o.Fits := by
  cases o with
  | messagePipe p =>
    show p.buffer.length ≤ p.capacity.toNat
    rw [h.1]
    exact Nat.zero_le _
  | _ => trivial

/-- A step keeps a pipe within its room. -/
theorem Step.fits {l : Label} {o o' : Object} (h : o.Step l o') (hfits : o.Fits) : o'.Fits := by
  cases h with
  | same => exact hfits
  | change _ hc =>
    cases hc with
    | settle hs => exact hs.fits hfits
    | resetPipe => exact Nat.zero_le _
    | _ => trivial
  | enqueue _ hq =>
    cases hq with
    | sender => exact hfits
    | receiver => exact hfits
    | _ => trivial
  | leave =>
    cases o with
    | messagePipe p =>
      unfold removeWaiter
      dsimp only
      split <;> exact hfits
    | _ => trivial

end Object

namespace Kernel

theorem along_of_forall {k : Kernel} {Q : Kernel → Operation → Prop} (h : ∀ k o, k.started.Nodup → Q k o)
    (hn : k.started.Nodup) (operations : List Operation) : k.Along Q operations := by
  induction operations generalizing k with
  | nil => trivial
  | cons o rest ih => exact ⟨h k o hn, ih (nodup_started_after o hn)⟩

/-- **A message pipe is a lossless stream of bytes.** In every reachable state the bytes sent into a pipe since its account
started are, in order, the bytes received from it and the bytes in it, of which there are no more than fit; and at each
operation of the run the passages are what happens to the pipe. -/
theorem streams_run (config : KernelConfig) (memory : Memory) (operations : List Operation) {id : ObjectId}
    {p : MessagePipe} (hp : ((Kernel.new config memory).run operations).objects.messagePipe? id = some p) :
    ((Kernel.new config memory).history id [] operations).flatMap Passage.sent =
        ((Kernel.new config memory).history id [] operations).flatMap Passage.received ++ p.buffer ∧
      p.buffer.length ≤ p.capacity.toNat ∧
      (Kernel.new config memory).Along (fun k o => k.Accounts id o (k.passages id o)) operations := by
  have hn : (Kernel.new config memory).started.Nodup := nodup_started_new config memory
  have hstart : (Kernel.new config memory).Streams id [] := by
    intro p hp
    rw [ObjectTable.messagePipe?_eq_some, get?_new] at hp
    cases hp
  have hfits : ((Kernel.new config memory).run operations).Objects Object.Fits :=
    objects_run (fun _ h _ => h.fits) (fun _ _ _ _ h => h.fits) config memory operations
  exact ⟨hstart.run hn operations p hp, hfits id (.messagePipe p) (ObjectTable.messagePipe?_eq_some.mp hp) nofun,
    along_of_forall (fun _ o hn => accounts_passages hn id o) hn operations⟩

/-- A send fills a pipe of four bytes, two more wait for room, and a receive lets one of them go on while the other times
out. -/
def crossedTransfers : List Operation :=
  [.syscall (.createThread "writer" 0x08900000 32 0x1000 0), .syscall (.createThread "late" 0x08900000 33 0x1000 0),
    .syscall (.createThread "reader" 0x08900000 34 0x1000 0), .syscall (.startThread 1 0 0),
    .syscall (.startThread 2 0 0), .syscall (.startThread 3 0 0), .syscall (.createPipe "bytes" 2 0 4),
    .guestWrite 0x08800000 [1, 2, 3, 4, 5, 6, 7], .guestWrite 0x08800100 [100, 0, 0, 0], .dispatch,
    .syscall (.trySendPipe 4 ⟨0x08800000, 4, 0, 0⟩), .syscall (.sendPipe 4 ⟨0x08800004, 3, 1, 0⟩ 0 false), .dispatch,
    .syscall (.sendPipe 4 ⟨0x08800000, 2, 0, 0⟩ 0x08800100 false), .dispatch,
    .syscall (.receivePipe 4 ⟨0x08800010, 3, 0, 0⟩ 0 false), .advanceClock 1000000,
    .syscall (.tryReceivePipe 4 ⟨0x08800020, 2, 1, 0⟩)]

/-- Seven bytes went in, five came out, and two are left. -/
theorem streams_run_crossedTransfers : ∃ p,
    ((Kernel.new {} {}).run crossedTransfers).objects.messagePipe? 4 = some p ∧ p.buffer = [6, 7] ∧
      ((Kernel.new {} {}).history 4 [] crossedTransfers).map (·.waiter?) = [none, none, some 1, none] ∧
      ((Kernel.new {} {}).history 4 [] crossedTransfers).flatMap Passage.sent = [1, 2, 3, 4, 5, 6, 7] ∧
      ((Kernel.new {} {}).history 4 [] crossedTransfers).flatMap Passage.sent =
        ((Kernel.new {} {}).history 4 [] crossedTransfers).flatMap Passage.received ++ p.buffer ∧
      p.buffer.length ≤ p.capacity.toNat ∧
      (Kernel.new {} {}).Along (fun k o => k.Accounts 4 o (k.passages 4 o)) crossedTransfers := by
  have hsome : (((Kernel.new {} {}).run crossedTransfers).objects.messagePipe? 4).isSome := by decide +kernel
  obtain ⟨p, hp⟩ := Option.isSome_iff_exists.mp hsome
  have hbuffer : (((Kernel.new {} {}).run crossedTransfers).objects.messagePipe? 4).map MessagePipe.buffer =
      some [6, 7] := by decide +kernel
  rw [hp] at hbuffer
  exact ⟨p, hp, Option.some.inj hbuffer, by decide +kernel, by decide +kernel, streams_run {} {} crossedTransfers hp⟩

end Kernel
end GuestKernel
