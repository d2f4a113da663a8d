/-
# Rounds on a message pipe come to an end

After bytes have been put into a pipe or taken out of it, queued requests are served round by round until neither the
receiver nor the sender at the front can be. A round may let the other side go on, so the sides can take turns, but every
round takes a waiter off and none is added (`exists_rounds`).

| in a round | |
| --- | --- |
| who is served | the receiver at the front if there are bytes for it, else the sender at the front if there is room |
| good pointers | the bytes move, and the thread is woken with 0 |
| a bad pointer | no byte moves, and the thread is woken with the memory error |

The rounds of a call are given by their turns, the first one first. `Quiesces` says what they come to, and holds after
every send and every receive that need not wait (`pipeQuiescence_run`).

Source: specification, 4.5.
-/

import GuestKernel.Proofs.PipeStream
import GuestKernel.Proofs.QueuePlaces
import GuestKernel.Proofs.Waking

namespace GuestKernel

/-! ### How a request ends -/

namespace PipeRequest

variable {r : PipeRequest} {m : Memory} {amount : Nat}

/-- A transfer of so many bytes touches guest memory where it cannot: at its buffer, or at the word for the amount. -/
def Faults (r : PipeRequest) (m : Memory) (amount : Nat) (f : Fault) : Prop :=
  m.locate r.address amount = .error f ∨ (r.outAddress ≠ 0 ∧ m.locate r.outAddress 4 = .error f)

/-- A request that is served is carried out if its pointers are good, and fails with the memory error if one is bad. -/
inductive EndsWith (r : PipeRequest) (m : Memory) (amount : Nat) (Done : Outcome → Prop) : Outcome → Prop where
  | completes {outcome : Outcome} (hgood : ∀ f, ¬ r.Faults m amount f) (h : Done outcome) : EndsWith r m amount Done outcome
  | fails {f : Fault} (hbad : r.Faults m amount f) : EndsWith r m amount Done (.failed (.memory f.error))

/-- A failed check names an address that the transfer would touch. -/
theorem faults_of_checkMemory {f : Fault} (h : r.checkMemory m amount = .error f) : r.Faults m amount f := by
  have hmap : ∀ {a : UInt32} {n : Nat}, (m.locate a n).map (fun _ => ()) = .error f → m.locate a n = .error f := by
    intro a n hmap
    cases hl : m.locate a n with
    | ok place =>
      rw [hl] at hmap
      cases hmap
    | error f' =>
      rw [hl] at hmap
      cases hmap
      rfl
  unfold checkMemory at h
  split at h
  · next hbuffer =>
    cases h
    split at hbuffer
    · exact Or.inl (hmap hbuffer)
    · cases hbuffer
  · split at h
    · cases h
    · next hout => exact Or.inr ⟨hout, hmap h⟩

/-- A request whose guest side is in order, and whose buffer is mapped even if no byte moves. -/
theorem not_faults {place : Place} (h : r.checkMemory m amount = .ok ()) (hl : m.locate r.address amount = .ok place)
    (f : Fault) : ¬ r.Faults m amount f := by
  rintro (hf | ⟨hout, hf⟩)
  · rw [hl] at hf
    cases hf
  · unfold checkMemory at h
    split at h
    · cases h
    · rw [if_neg hout, hf] at h
      cases h

/-- A receive whose check passes puts its bytes into the buffer. -/
theorem endsWith_receive {bytes : List UInt8} (h : r.checkMemory m bytes.length = .ok ()) :
    r.EndsWith m bytes.length (· = .received bytes) (r.receiveOutcome m bytes) := by
  unfold receiveOutcome Memory.writeBytes
  cases hl : m.locate r.address bytes.length with
  | ok place => exact .completes (not_faults h hl) rfl
  | error f => exact .fails (Or.inl hl)

/-- A send whose check passes takes its bytes from the buffer. -/
theorem endsWith_send (h : r.checkMemory m amount = .ok ()) :
    r.EndsWith m amount (fun outcome => ∃ bytes, m.readBytes r.address amount = .ok bytes ∧ outcome = .sent bytes)
      (r.sendOutcome m amount) := by
  unfold sendOutcome
  cases hl : m.locate r.address amount with
  | ok place =>
    have hread : m.readBytes r.address amount = .ok (m.bytesAt place amount) := by
      rw [Memory.readBytes, hl]
      rfl
    rw [hread]
    exact .completes (not_faults h hl) ⟨_, rfl, rfl⟩
  | error f =>
    have hread : m.readBytes r.address amount = .error f := by
      rw [Memory.readBytes, hl]
      rfl
    rw [hread]
    exact .fails (Or.inl hl)

end PipeRequest

/-- A sender is served only if no receiver can be. -/
theorem MessagePipe.receiver_waits_of_next? {p p₁ : MessagePipe} {m : Memory} {t : Transfer}
    (h : p.next? m = some (t, p₁)) (hreceivers : p₁.receivers = p.receivers) :
    ∀ w ∈ p.receivers.head?, p.receiveAmount? w.request = none := by
  intro w hw
  cases hq : p.receivers with
  | nil =>
    rw [hq] at hw
    cases hw
  | cons w₀ rest =>
    rw [hq, List.head?_cons, Option.mem_def, Option.some.injEq] at hw
    subst hw
    by_contra hamount
    obtain ⟨amount, ha⟩ := Option.ne_none_iff_exists'.mp hamount
    have hserved : p₁.receivers = rest := by
      unfold next? at h
      rw [hq] at h
      dsimp only at h
      rw [ha] at h
      dsimp only [Option.map_some] at h
      split at h <;> cases h <;> rfl
    rw [hserved, hq] at hreceivers
    exact List.cons_ne_self _ _ hreceivers.symm

/-! ### Turns -/

/-- A waiter that has been served: on which side, and what came of its request. -/
structure PipeTurn where
  sending : Bool
  waiter : Waiter PipeRequest
  outcome : Outcome

namespace PipeTurn

def thread (t : PipeTurn) : ThreadId := t.waiter.thread

/-- What is done with the request of a turn. -/
def passage (t : PipeTurn) : Passage := ⟨some t.thread, t.waiter.request, t.outcome⟩

/-- Who is woken in a turn, and with which result. -/
def waking (t : PipeTurn) : ThreadId × Int32 := (t.thread, t.outcome.result)

end PipeTurn

namespace Kernel

variable {k k₁ k' : Kernel} {p p₁ p' : MessagePipe} {t : PipeTurn} {turns : List PipeTurn}
  {transfer : MessagePipe.Transfer}

/-- What a turn does besides taking the waiter off its queue: its passage, and one wake if the thread waits. -/
structure TurnLeadsTo (k : Kernel) (p : MessagePipe) (t : PipeTurn) (k' : Kernel) (p' : MessagePipe) : Prop where
  passage : t.passage.LeadsTo k p k' p'
  wakes : ∀ w, k.waitOf? t.thread = some w → k'.wakings = t.waking :: k.wakings

/-- One round: the receiver at the front is served, or else the sender at the front. -/
inductive Serving (k : Kernel) (p : MessagePipe) : PipeTurn → Kernel → MessagePipe → Prop where
  | receive {w : Waiter PipeRequest} {rest : WaitQueue PipeRequest} {amount : Nat} {outcome : Outcome} {k' : Kernel}
      {p' : MessagePipe} (hq : p.receivers = w :: rest) (ha : p.receiveAmount? w.request = some amount)
      (hends : w.request.EndsWith k.memory amount (· = .received (p.buffer.take amount)) outcome)
      (hturn : TurnLeadsTo k p ⟨false, w, outcome⟩ k' p') (hp' : p' = { p with receivers := rest, buffer := p'.buffer }) :
      Serving k p ⟨false, w, outcome⟩ k' p'
  | send {w : Waiter PipeRequest} {rest : WaitQueue PipeRequest} {amount : Nat} {outcome : Outcome} {k' : Kernel}
      {p' : MessagePipe} (hfirst : ∀ w ∈ p.receivers.head?, p.receiveAmount? w.request = none)
      (hq : p.senders = w :: rest) (ha : p.sendAmount? w.request = some amount)
      (hends : w.request.EndsWith k.memory amount
        (fun outcome => ∃ bytes, k.memory.readBytes w.request.address amount = .ok bytes ∧ outcome = .sent bytes) outcome)
      (hturn : TurnLeadsTo k p ⟨true, w, outcome⟩ k' p') (hp' : p' = { p with senders := rest, buffer := p'.buffer }) :
      Serving k p ⟨true, w, outcome⟩ k' p'

/-- The rounds on a pipe, as many as it takes until there is nothing to serve. -/
inductive Rounds : Kernel → MessagePipe → List PipeTurn → Kernel → MessagePipe → Prop where
  | stop {k : Kernel} {p : MessagePipe} (h : p.next? k.memory = none) : Rounds k p [] k p
  | turn {k k' : Kernel} {p p₁ p' : MessagePipe} {transfer : MessagePipe.Transfer} {t : PipeTurn} {turns : List PipeTurn}
      (hnext : p.next? k.memory = some (transfer, p₁))
      (hserving : Serving k p t (k.transfer p₁ transfer).1 (k.transfer p₁ transfer).2)
      (hrest : Rounds (k.transfer p₁ transfer).1 (k.transfer p₁ transfer).2 turns k' p') : Rounds k p (t :: turns) k' p'

/-! ### One round -/

/-- The thread whose request is served is woken once, with what came of the request. -/
theorem wakings_transfer {w : Wait} (h : p.Next k.memory transfer p₁) (hw : k.waitOf? transfer.waiter.thread = some w) :
    (k.transfer p₁ transfer).1.wakings =
      (transfer.waiter.thread, (transfer.passage k.memory).outcome.result) :: k.wakings := by
  obtain ⟨k₁, result, hquiet, hwake, hwakings⟩ := transfer_wakes k p₁ transfer
  obtain ⟨memory, journal, -, htell⟩ := (leadsTo_transfer h).acts
  obtain ⟨thread, hthread, hwait⟩ := waitOf?_eq_some.mp hw
  have htold : (k.transfer p₁ transfer).1.thread? transfer.waiter.thread = some (thread.unpark result) := by
    rw [hwake, thread?_wake, if_pos rfl, hquiet.thread?, hthread, Option.map_some, Thread.woken_of_waiting hwait]
  have houtcome : (k.transfer p₁ transfer).1.thread? transfer.waiter.thread =
      some (thread.unpark (transfer.passage k.memory).outcome.result) := by
    have hwaiter : (transfer.passage k.memory).waiter? = some transfer.waiter.thread := by cases transfer <;> rfl
    rw [htell, Passage.tell, hwaiter]
    dsimp only
    rw [thread?_wake, if_pos rfl, show ({ k with memory, journal := journal ++ k.journal } : Kernel).thread? _ = _ from
      hthread, Option.map_some, Thread.woken_of_waiting hwait]
  have hresult : result = (transfer.passage k.memory).outcome.result :=
    congrArg Thread.wakeResult (Option.some.inj (htold.symm.trans houtcome))
  have hwait₁ : k₁.waitOf? transfer.waiter.thread = some w := by
    rw [waitOf?, hquiet.thread?]
    exact hw
  rw [hwake, wakings_wake hwait₁, hwakings, hresult]

/-- A send that is completed changes nothing but the bytes of the pipe. -/
theorem completeSend_frame (k : Kernel) (p : MessagePipe) (w : Waiter PipeRequest) (amount : Nat) :
    (k.completeSend p w amount).2 = { p with buffer := (k.completeSend p w amount).2.buffer } := by
  unfold completeSend
  cases k.memory.readBytes w.request.address amount with
  | error f => rfl
  | ok bytes =>
    dsimp only
    cases k.memory.writeOptional w.request.outAddress (UInt32.ofNat amount) <;> rfl

/-- **Serving the next request is a round.** -/
theorem serving_transfer (hnext : p.next? k.memory = some (transfer, p₁)) :
    ∃ sending, Serving k p ⟨sending, transfer.waiter, (transfer.passage k.memory).outcome⟩ (k.transfer p₁ transfer).1
      (k.transfer p₁ transfer).2 := by
  have h := MessagePipe.next_of_next? hnext
  have hleads := leadsTo_transfer h
  have hwakes := fun w => wakings_transfer (w := w) h
  cases h with
  | @receive w rest amount hq ha hm =>
    have hlen := PipeRequest.length_take_receiveAmount ha
    have hends := PipeRequest.endsWith_receive (hlen.symm ▸ hm)
    rw [hlen] at hends
    exact ⟨false, .receive hq ha hends ⟨hleads, hwakes⟩ rfl⟩
  | @rejectReceiver w rest amount f hq ha hm =>
    exact ⟨false, .receive hq ha (.fails (PipeRequest.faults_of_checkMemory hm)) ⟨hleads, hwakes⟩ rfl⟩
  | @send w rest amount hq ha hm =>
    have hfirst := MessagePipe.receiver_waits_of_next? hnext rfl
    exact ⟨true, .send hfirst hq ha (PipeRequest.endsWith_send hm) ⟨hleads, hwakes⟩ (completeSend_frame ..)⟩
  | @rejectSender w rest amount f hq ha hm =>
    have hfirst := MessagePipe.receiver_waits_of_next? hnext rfl
    exact ⟨true, .send hfirst hq ha (.fails (PipeRequest.faults_of_checkMemory hm)) ⟨hleads, hwakes⟩ rfl⟩

namespace Serving

variable (h : Serving k p t k' p')

include h

theorem turnLeadsTo : TurnLeadsTo k p t k' p' := by cases h <;> assumption

/-- A waiter leaves its queue from the front, and nobody comes. -/
theorem lines : p.receivers = (if t.sending then [] else [t.waiter]) ++ p'.receivers ∧
      p.senders = (if t.sending then [t.waiter] else []) ++ p'.senders := by
  cases h with
  | receive hq ha hends hturn hp' =>
    rw [hp', hq]
    exact ⟨rfl, rfl⟩
  | send hfirst hq ha hends hturn hp' =>
    rw [hp', hq]
    exact ⟨rfl, rfl⟩

/-- A round takes one thread off the queues. -/
theorem perm : (p.senders.threads ++ p.receivers.threads).Perm
    (t.thread :: (p'.senders.threads ++ p'.receivers.threads)) := by
  cases h with
  | receive hq ha hends hturn hp' =>
    rw [hp', hq]
    exact List.perm_middle
  | send hfirst hq ha hends hturn hp' =>
    rw [hp', hq]
    exact .refl _

/-- The thread is told the outcome, and the others are left alone. -/
theorem thread? (id : ThreadId) :
    k'.thread? id = if id = t.thread then (k.thread? id).map (·.woken t.outcome.result) else k.thread? id := by
  obtain ⟨memory, journal, -, htell⟩ := h.turnLeadsTo.passage.acts
  rw [htell]
  exact thread?_wake { k with memory, journal := journal ++ k.journal } t.thread t.outcome.result id

end Serving

/-! ### All rounds -/

/-- **The rounds come to an end**, since each takes a waiter off and adds none. -/
theorem exists_rounds (k : Kernel) (p : MessagePipe) : ∃ turns k' p', Rounds k p turns k' p' := by
  induction hn : p.senders.length + p.receivers.length using Nat.strong_induction_on generalizing k p with
  | _ n ih =>
    cases hnext : p.next? k.memory with
    | none => exact ⟨[], k, p, .stop hnext⟩
    | some found =>
      obtain ⟨transfer, p₁⟩ := found
      have hfewer := (round_transfer (MessagePipe.next_of_next? hnext)).length_add
      obtain ⟨sending, hserving⟩ := serving_transfer hnext
      obtain ⟨turns, k', p', hrest⟩ := ih _ (by omega) (k.transfer p₁ transfer).1 (k.transfer p₁ transfer).2 rfl
      exact ⟨_, k', p', .turn hnext hserving hrest⟩

namespace Rounds

variable (h : Rounds k p turns k' p')

include h

/-- Whatever number of rounds is allowed, if it is enough, they are these. -/
theorem settleFor_eq {n : Nat} (hn : turns.length ≤ n) : k.settleFor p n = (k', p') := by
  induction h generalizing n with
  | stop h =>
    cases n with
    | zero => rfl
    | succ n => rw [settleFor, h]
  | turn hnext _ _ ih =>
    cases n with
    | zero => exact absurd hn (Nat.not_succ_le_zero _)
    | succ n =>
      rw [settleFor, hnext]
      exact ih (Nat.le_of_succ_le_succ hn)

theorem idle : p'.Idle := by
  induction h with
  | stop h => exact MessagePipe.idle_of_next?_eq_none h
  | turn _ _ _ ih => exact ih

theorem carries : k.Carries p (turns.map PipeTurn.passage) k' p' := by
  induction h with
  | stop => exact .nil _ _
  | turn _ hserving _ ih => exact .cons hserving.turnLeadsTo.passage ih

/-- Each side is served from its front. -/
theorem lines : p.receivers = (turns.filter (!·.sending)).map (·.waiter) ++ p'.receivers ∧
      p.senders = (turns.filter (·.sending)).map (·.waiter) ++ p'.senders := by
  induction h with
  | stop => exact ⟨rfl, rfl⟩
  | @turn k k' p p₁ p' transfer t turns _ hserving _ ih =>
    obtain ⟨hreceivers, hsenders⟩ := hserving.lines
    rw [hreceivers, hsenders, ih.1, ih.2]
    cases hside : t.sending with
    | true => simp [hside]
    | false => simp [hside]

/-- Whoever waited has been served or waits on. -/
theorem perm : (p.senders.threads ++ p.receivers.threads).Perm
    (turns.map PipeTurn.thread ++ (p'.senders.threads ++ p'.receivers.threads)) := by
  induction h with
  | stop => exact .refl _
  | turn _ hserving _ ih => exact hserving.perm.trans (ih.cons _)

theorem length_add :
    turns.length + (p'.senders.length + p'.receivers.length) = p.senders.length + p.receivers.length := by
  have hlength := h.perm.length_eq
  simp only [List.length_append, List.length_map, WaitQueue.threads] at hlength
  omega

/-- **Every thread that is served is woken once**, in the order of the turns, and nobody else is touched. -/
theorem wakes (hn : (p.senders.threads ++ p.receivers.threads).Nodup)
    (hw : ∀ id ∈ p.senders.threads ++ p.receivers.threads, (k.waitOf? id).isSome = true) :
    k'.wakings = (turns.map PipeTurn.waking).reverse ++ k.wakings ∧
      (∀ t ∈ turns, k'.thread? t.thread = (k.thread? t.thread).map (·.unpark t.outcome.result)) ∧
      ∀ id, id ∉ turns.map PipeTurn.thread → k'.thread? id = k.thread? id := by
  induction h with
  | stop => exact ⟨rfl, fun t ht => absurd ht List.not_mem_nil, fun _ _ => rfl⟩
  | @turn k k' p p₁ p' transfer t turns _ hserving hrest ih =>
    generalize (k.transfer p₁ transfer).1 = k₁ at hserving hrest ih
    generalize (k.transfer p₁ transfer).2 = p₂ at hserving hrest ih
    obtain ⟨hout, hn₂⟩ := List.nodup_cons.mp (hserving.perm.nodup hn)
    have hothers : ∀ id, id ≠ t.thread → k₁.thread? id = k.thread? id := fun id hne => by
      rw [hserving.thread?, if_neg hne]
    -- Whoever still waits is another thread, so it waits as before.
    have hw₂ : ∀ id ∈ p₂.senders.threads ++ p₂.receivers.threads, (k₁.waitOf? id).isSome = true := fun id hid => by
      rw [waitOf?, hothers id fun heq => hout (heq ▸ hid)]
      exact hw id (hserving.perm.mem_iff.mpr (List.mem_cons_of_mem _ hid))
    obtain ⟨hwakings, hwoken, hleft⟩ := ih hn₂ hw₂
    have hlater : ∀ t' ∈ turns, t'.thread ≠ t.thread := fun t' ht' heq => by
      refine hout (hrest.perm.mem_iff.mpr (List.mem_append_left _ ?_))
      rw [← heq]
      exact List.mem_map_of_mem ht'
    obtain ⟨w, hwait⟩ := Option.isSome_iff_exists.mp
      (hw t.thread (hserving.perm.mem_iff.mpr List.mem_cons_self))
    refine ⟨?_, fun t' ht' => ?_, fun id hid => ?_⟩
    · rw [hwakings, hserving.turnLeadsTo.wakes w hwait, List.map_cons, List.reverse_cons, List.append_assoc]
      rfl
    · rcases List.mem_cons.mp ht' with rfl | ht'
      · obtain ⟨thread, hthread, hwaits⟩ := waitOf?_eq_some.mp hwait
        have hnot : t'.thread ∉ turns.map PipeTurn.thread := fun hmem => by
          obtain ⟨t'', ht'', heq⟩ := List.mem_map.mp hmem
          exact hlater t'' ht'' heq
        rw [hleft _ hnot, hserving.thread?, if_pos rfl, hthread, Option.map_some, Option.map_some,
          Thread.woken_of_waiting hwaits]
      · rw [hwoken t' ht', hothers _ (hlater t' ht')]
    · rw [List.map_cons, List.mem_cons, not_or] at hid
      rw [hleft id hid.2, hothers id hid.1]

end Rounds

/-! ### What the rounds come to -/

/-- The rounds on a pipe, after which it is stored, have served all that can be served. -/
structure Quiesces (k : Kernel) (p : MessagePipe) (turns : List PipeTurn) (k' : Kernel) (p' : MessagePipe) : Prop where
  /-- Each turn is a round, and there is nothing to serve after the last one. -/
  rounds : ∃ k₁, Rounds k p turns k₁ p' ∧ k' = k₁.put (.messagePipe p')
  /-- Each turn takes one waiter off, and none is added. -/
  length : turns.length + (p'.senders.length + p'.receivers.length) = p.senders.length + p.receivers.length
  /-- Each side is served in queue order. -/
  receivers : p.receivers = (turns.filter (!·.sending)).map (·.waiter) ++ p'.receivers
  senders : p.senders = (turns.filter (·.sending)).map (·.waiter) ++ p'.senders
  /-- Neither the receiver nor the sender at the front can be served. -/
  idle : p'.Idle
  stored : k'.objects.messagePipe? p.id = some p'
  /-- Bytes come into the pipe and leave it by transfers that have been carried out. -/
  bytes : p.buffer ++ (turns.map PipeTurn.passage).flatMap Passage.sent =
    (turns.map PipeTurn.passage).flatMap Passage.received ++ p'.buffer
  /-- Every waiter taken off is woken once, with what came of its request. -/
  once : (turns.map PipeTurn.thread).Nodup
  wakings : k'.wakings = (turns.map PipeTurn.waking).reverse ++ k.wakings
  woken : ∀ t ∈ turns, k'.thread? t.thread = (k.thread? t.thread).map (·.unpark t.outcome.result)
  others : ∀ id, id ∉ turns.map PipeTurn.thread → k'.thread? id = k.thread? id

/-- **A pipe that is settled is quiet.** -/
theorem quiesces_settle (hget : k.objects.get? p.id = some (.messagePipe p₁))
    (hn : (p.senders.threads ++ p.receivers.threads).Nodup)
    (hw : ∀ id ∈ p.senders.threads ++ p.receivers.threads, (k.waitOf? id).isSome = true) :
    ∃ turns p', Quiesces k p turns (k.settle p) p' := by
  obtain ⟨turns, k₁, p', hrounds⟩ := exists_rounds k p
  have hlength := hrounds.length_add
  have hid : p'.id = p.id := hrounds.carries.id_eq
  obtain ⟨hwakings, hwoken, hothers⟩ := hrounds.wakes hn hw
  have hsettle : k.settle p = k₁.put (.messagePipe p') := by
    rw [settle, hrounds.settleFor_eq (by omega)]
  have hhidden : k.thread? p.id = none := by
    rw [thread?, ObjectTable.thread?_eq_bind, hget]
    rfl
  -- A thread that is served exists, so it is not the pipe.
  have hpipe : k₁.thread? p'.id = none := by
    rw [hid, hothers _ fun hmem => ?_, hhidden]
    have hmem' := hw p.id (hrounds.perm.mem_iff.mpr (List.mem_append_left _ hmem))
    rw [waitOf?, hhidden] at hmem'
    cases hmem'
  have hkind : (Object.messagePipe p').kind ≠ .thread := by simp [Object.kind]
  have hthreads : ∀ id, (k.settle p).thread? id = k₁.thread? id := fun id => by
    rw [hsettle]
    exact thread?_put_hidden hkind hpipe id
  refine ⟨turns, p', ⟨k₁, hrounds, hsettle⟩, hlength, hrounds.lines.1, hrounds.lines.2, hrounds.idle, ?_,
    hrounds.carries.bytes, (List.nodup_append.mp (hrounds.perm.nodup hn)).1, ?_, fun t ht => ?_, fun id hmem => ?_⟩
  · rw [hsettle, ← hid]
    exact ObjectTable.messagePipe?_eq_some.mpr ((ObjectTable.get?_put ..).trans (if_pos rfl))
  · rw [hsettle]
    exact hwakings
  · rw [hthreads, hwoken t ht]
  · rw [hthreads, hothers id hmem]

/-- **Rounds on pipes run until nothing can be served.** In every reachable state, whatever bytes a pipe has come to hold
and whatever guest memory holds, settling it ends after finitely many rounds. Each serves the receiver at the front, or
the sender at the front if no receiver can be served. It takes that waiter off and wakes it once, with 0 if its bytes have
moved, and with the memory error if one of its pointers is bad; then no byte has moved. At the end neither front can be
served. Sends and receives that succeed at once end so. -/
theorem pipeQuiescence_run (config : KernelConfig) (memory : Memory) (operations : List Operation) (x : ObjectId)
    (p : MessagePipe) (hids : (Kernel.new config memory).handedOut operations < 2 ^ 32 - 1)
    (hp : ((Kernel.new config memory).run operations).objects.messagePipe? x = some p) :
    let k := (Kernel.new config memory).run operations
    (∀ (m : Memory) (buffer : List UInt8), ∃ turns p', Quiesces { k with memory := m } { p with buffer } turns
      (({ k with memory := m } : Kernel).settle { p with buffer }) p') ∧
    (∀ r, (k.trySendPipe x r).result = .ok () → ∃ (m : Memory) (bytes : List UInt8), ∃ turns p',
      Quiesces { k with memory := m } (p.push bytes) turns (k.trySendPipe x r).kernel p') ∧
    (∀ r, (k.tryReceivePipe x r).result = .ok () → ∃ (m : Memory) (amount : Nat), ∃ turns p',
      Quiesces { k with memory := m } (p.drop amount) turns (k.tryReceivePipe x r).kernel p') := by
  intro k
  have hget := ObjectTable.messagePipe?_eq_some.mp hp
  obtain rfl : p.id = x := ObjectTable.id_of_get? hget
  have hplaced := (placed_run config memory operations hids).2
  have hquiesces : ∀ (m : Memory) (buffer : List UInt8), ∃ turns p', Quiesces { k with memory := m } { p with buffer }
      turns (({ k with memory := m } : Kernel).settle { p with buffer }) p' := fun m buffer => by
    refine quiesces_settle (k := { k with memory := m }) (p := { p with buffer }) hget (hplaced.nodup_waiting hget)
      fun id hid => ?_
    obtain ⟨t, w, ht, hwait, -⟩ := hplaced.waits hget hid
    exact Option.isSome_iff_exists.mpr ⟨w, waitOf?_eq_some.mpr ⟨t, ht, hwait⟩⟩
  have hsame : ∀ {p₀ : MessagePipe}, p₀.id = p.id → k.objects.get? p₀.id = some (.messagePipe p₀) → p₀ = p := by
    intro p₀ hid hget₀
    rw [hid] at hget₀
    cases hget.symm.trans hget₀
    rfl
  refine ⟨hquiesces, fun r hr => ?_, fun r hr => ?_⟩
  · obtain ⟨k', e, -, -, heq⟩ | ⟨p₀, m, bytes, hid, hget₀, -, heq⟩ := trySendPipe_cases k p.id r <;> rw [heq] at hr ⊢
    · cases hr
    · obtain rfl := hsame hid hget₀
      exact ⟨m, bytes, hquiesces m _⟩
  · obtain ⟨k', e, -, -, heq⟩ | ⟨p₀, m, amount, hid, hget₀, heq⟩ := tryReceivePipe_cases k p.id r <;> rw [heq] at hr ⊢
    · cases hr
    · obtain rfl := hsame hid hget₀
      exact ⟨m, amount, hquiesces m _⟩

/-- Three threads wait for 3, 1 and 1 bytes of an empty pipe with room for 4, the second of them with a bad pointer, and a
fourth thread runs. -/
def waitingReceivers : List Operation :=
  [.syscall (.createThread "first" 0x08900000 32 0x1000 0), .syscall (.createThread "second" 0x08900000 33 0x1000 0),
    .syscall (.createThread "third" 0x08900000 34 0x1000 0), .syscall (.createThread "fourth" 0x08900000 35 0x1000 0),
    .syscall (.startThread 1 0 0), .syscall (.startThread 2 0 0), .syscall (.startThread 3 0 0),
    .syscall (.startThread 4 0 0), .syscall (.createPipe "pipe" 2 0 4), .dispatch,
    .syscall (.receivePipe 5 ⟨0x08800000, 3, 0, 0⟩ 0 false), .dispatch, .syscall (.receivePipe 5 ⟨1, 1, 0, 0⟩ 0 false),
    .dispatch, .syscall (.receivePipe 5 ⟨0x08800010, 1, 0, 0⟩ 0 false), .dispatch]

/-- Four bytes are sent. The first and the third thread get theirs, and the second is told that its pointer is bad. -/
theorem pipeQuiescence_run_waitingReceivers : ∃ p,
    (Kernel.new {} {}).handedOut waitingReceivers < 2 ^ 32 - 1 ∧
      ((Kernel.new {} {}).run waitingReceivers).objects.messagePipe? 5 = some p ∧
      (((Kernel.new {} {}).run waitingReceivers).trySendPipe 5 ⟨0x08800020, 4, 0, 0⟩).result = .ok () ∧
      ∃ (m : Memory) (bytes : List UInt8), ∃ turns p',
        Quiesces { (Kernel.new {} {}).run waitingReceivers with memory := m } (p.push bytes) turns
          (((Kernel.new {} {}).run waitingReceivers).trySendPipe 5 ⟨0x08800020, 4, 0, 0⟩).kernel p' ∧
        turns.map PipeTurn.waking = [(1, 0), (2, (KernelError.memory (.invalidAddress 1)).code), (3, 0)] := by
  have hids : (Kernel.new {} {}).handedOut waitingReceivers < 2 ^ 32 - 1 := handedOut_lt (by decide)
  obtain ⟨p, hp⟩ := Option.isSome_iff_exists.mp
    (show (((Kernel.new {} {}).run waitingReceivers).objects.messagePipe? 5).isSome by decide +kernel)
  have hsucceeds : (((Kernel.new {} {}).run waitingReceivers).trySendPipe 5 ⟨0x08800020, 4, 0, 0⟩).result = .ok () := by
    decide +kernel
  have hwoken : (((Kernel.new {} {}).run waitingReceivers).trySendPipe 5 ⟨0x08800020, 4, 0, 0⟩).kernel.wakings =
      [(3, 0), (2, (KernelError.memory (.invalidAddress 1)).code), (1, 0)] ++
        ((Kernel.new {} {}).run waitingReceivers).wakings := by
    decide +kernel
  have hquiescence := (pipeQuiescence_run {} {} waitingReceivers 5 p hids hp).2.1
  refine ⟨p, hids, hp, hsucceeds, ?_⟩
  generalize (Kernel.new {} {}).run waitingReceivers = k at hsucceeds hwoken hquiescence ⊢
  obtain ⟨m, bytes, turns, p', hquiesces⟩ := hquiescence _ hsucceeds
  refine ⟨m, bytes, turns, p', hquiesces, List.reverse_injective ?_⟩
  exact List.append_cancel_right (hquiesces.wakings.symm.trans hwoken)

end Kernel
end GuestKernel
