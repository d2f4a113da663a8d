/-
# Calls that block and their twins that fail

Taking units of a semaphore, waiting for bits of an event flag, locking a mutex, sending to a pipe and receiving from it
come in two forms. One form fails if the request cannot be satisfied at once, the other one blocks. Where the first
form succeeds, the second does the same; where the second blocks, the first fails with the error that says so, and
all that has happened is that the running thread is parked and queued (`Refines`).

The two forms for event flags differ in when they use the pointer for the pattern. The one that fails reports the
pattern that it saw even then, so it needs a word to write to; the one that blocks looks at the pointer only when the
thread is served. An address whose first byte is mapped is not enough for a word (`poll_reports_fault`).

Source: specification, 4.4 to 4.6.
-/

import GuestKernel.Proofs.SemaphoreUnits

namespace GuestKernel

/-- The waiter has entered the queue, and the others stand as they stood. -/
def WaitQueue.Gains {ρ : Type} (q : WaitQueue ρ) (w : Waiter ρ) (q' : WaitQueue ρ) : Prop :=
  ∃ front back, q = front ++ back ∧ q' = front ++ w :: back

theorem WaitQueue.gains_enqueue {ρ : Type} (attributes : UInt32) (w : Waiter ρ) (q : WaitQueue ρ) :
    q.Gains w (q.enqueue attributes w) := by
  unfold enqueue
  split
  · exact ⟨q, [], by simp, rfl⟩
  · exact ⟨_, _, List.takeWhile_append_dropWhile.symm, rfl⟩

namespace Memory

variable {m : Memory} {address : UInt32}

/-- A word is written wherever four bytes are mapped. -/
theorem writeOptional_eq_ok (h : address = 0 ∨ (m.locate address 4).isOk = true) (value : UInt32) :
    ∃ m', m.writeOptional address value = .ok m' := by
  unfold writeOptional
  split
  · exact ⟨m, rfl⟩
  · next hne =>
    have hlocate := h.resolve_left hne
    unfold writeWord writeBytes
    rw [length_toBytes]
    cases hplace : m.locate address 4 with
    | error f =>
      rw [hplace] at hlocate
      cases hlocate
    | ok place => exact ⟨_, rfl⟩

end Memory

namespace Kernel

variable {k : Kernel} {id : ObjectId} {ρ : Type} {w : Wait} {attempt : Reply Unit} {unsatisfied : KernelError}

/-- The running thread `t` is parked with the wait `w`, and `o` is stored. Nothing else is different but the journal. -/
structure Parks (k : Kernel) (t : Thread) (w : Wait) (o : Object) (k' : Kernel) : Prop where
  current : k.current = some t.id
  thread : k.thread? t.id = some t
  running : t.status = .onlyRunning
  parked : k' =
    { k with
      objects := (k.objects.put (.thread { t with status := .onlyWaiting, wait := some w, wakeResult := 0 })).put o
      current := none
      journal := .waitBegun t.id w.kind w.handle :: k.journal }

/-- The call that may block and the attempt that fails instead agree: what the attempt achieves the call achieves, and
the call blocks only where the attempt fails with `unsatisfied`. Blocked, the running thread is parked with the wait `w`,
and with its request it stands in the queue of the object; `queued` says what that object is. -/
structure Refines (k : Kernel) (attempt : Reply Unit) (call : Reply WaitOutcome) (unsatisfied : KernelError) (w : Wait)
    (request : ρ) (queued : Waiter ρ → Object → Prop) : Prop where
  completes : attempt.result = .ok () → call = ⟨.ok (.completed 0), attempt.kernel⟩
  blocks : call.result = .ok .blocked → attempt.result = .error unsatisfied
  parks : call.result = .ok .blocked → ∃ t timeout o, k.readTimeout w.timeoutAddress = .ok timeout ∧
    k.Parks t { w with timeout, since := k.now } o call.kernel ∧ queued ⟨t.id, t.priority, request⟩ o

namespace Refines

variable {attempt : Reply Unit} {call : Reply WaitOutcome} {unsatisfied : KernelError} {w : Wait} {request : ρ}
  {queued : Waiter ρ → Object → Prop}

/-- Both succeed. -/
theorem of_done (k' : Kernel) : Refines k (k'.done ()) (k'.done (.completed 0)) unsatisfied w request queued where
  completes _ := rfl
  blocks h := by cases h
  parks h := by cases h

/-- Both fail. -/
theorem of_errors {e e' : KernelError} (h : attempt.result = .error e) (h' : call.result = .error e') :
    Refines k attempt call unsatisfied w request queued where
  completes hok := by
    rw [h] at hok
    cases hok
  blocks hblocked := by
    rw [h'] at hblocked
    cases hblocked
  parks hblocked := by
    rw [h'] at hblocked
    cases hblocked

end Refines

/-- The running thread stands in no queue of ready ones, so parking it changes the thread alone. -/
theorem Coherent.park_eq (h : k.Coherent) {t : Thread} (hd : k.delivering = none) (hc : k.current = some t.id)
    (ht : k.thread? t.id = some t) (w : Wait) : k.park t w =
      { k with
        objects := k.objects.put (.thread { t with status := .onlyWaiting, wait := some w, wakeResult := 0 })
        current := none } := by
  have hrunning := h.runs hd hc ht
  have hnotReady : ∀ t', k.thread? t.id = some t' → t'.status ≠ .onlyReady := by
    intro t' ht'
    rw [ht, Option.some.injEq] at ht'
    rw [← ht', hrunning]
    decide
  unfold Kernel.park Thread.park
  rw [hrunning, ReadyQueue.remove_eq_self (h.ready.not_mem hnotReady)]
  rfl

/-- **A call that blocks** parks the running thread, which was not ready, and stores the object it queues on. -/
theorem Coherent.parks_of_block (h : k.Coherent) {request : ρ} {queue : Waiter ρ → Object}
    (hblocked : (k.block w request queue).result = .ok .blocked) :
    ∃ t timeout, k.readTimeout w.timeoutAddress = .ok timeout ∧
      k.Parks t { w with timeout, since := k.now } (queue ⟨t.id, t.priority, request⟩) (k.block w request queue).kernel := by
  unfold block at hblocked ⊢
  split at hblocked
  · cases hblocked
  · next timeout htimeout =>
    split at hblocked
    · cases hblocked
    · next id hc =>
      split at hblocked
      · cases hblocked
      · next t ht =>
        obtain ⟨e, he⟩ | ⟨t', hd, hc', ht', he⟩ := beginWait_cases k { w with timeout }
        · rw [he] at hblocked
          cases hblocked
        · rw [hc, Option.some.injEq] at hc'
          rw [← hc', ht, Option.some.injEq] at ht'
          subst ht' hc'
          refine ⟨t, timeout, htimeout, hc, ht, h.runs hd hc ht, ?_⟩
          rw [he]
          exact congrArg (fun k' : Kernel => (k'.note (.waitBegun t.id w.kind w.handle)).put
            (queue ⟨t.id, t.priority, request⟩)) (h.park_eq hd hc ht _)

/-- The attempt cannot be satisfied, and the call blocks or fails. -/
theorem Coherent.refines_block (h : k.Coherent)
    {request : ρ} {queue : Waiter ρ → Object} {queued : Waiter ρ → Object → Prop}
    (hattempt : attempt.result = .error unsatisfied) (hqueue : ∀ waiter, queued waiter (queue waiter)) :
    Refines k attempt (k.block w request queue) unsatisfied w request queued where
  completes hok := by
    rw [hattempt] at hok
    cases hok
  blocks _ := hattempt
  parks hblocked := by
    obtain ⟨t, timeout, htimeout, hparks⟩ := h.parks_of_block hblocked
    exact ⟨t, timeout, _, htimeout, hparks, hqueue _⟩

/-- What was found under an id has taken a waiter into one of its queues. -/
def TakesWaiter {α : Type} (found : Option α) (queue : α → WaitQueue ρ) (store : α → WaitQueue ρ → Object) (w : Waiter ρ)
    (o : Object) : Prop :=
  ∃ a q, found = some a ∧ (queue a).Gains w q ∧ o = store a q

/-! ### The five pairs -/

/-- Waiting for units is polling for them, or a place in the queue. -/
theorem Coherent.refines_waitSemaphore (h : k.Coherent)
    (hsound : ∀ s, k.objects.semaphore? id = some s → s.count ≤ s.maxCount) (need : Int32) (timeoutAddress : UInt32)
    (callbacks : Bool) :
    Refines k (k.pollSemaphore id need) (k.waitSemaphore id need timeoutAddress callbacks) .semaphoreZero
      { kind := .semaphore, handle := id, argument := need.toUInt32, timeoutAddress, callbacks } need
      (TakesWaiter (k.objects.semaphore? id) (·.waiters) fun s waiters => .semaphore { s with waiters }) := by
  unfold pollSemaphore waitSemaphore
  cases hs : k.objects.semaphore? id with
  | none => exact .of_errors rfl rfl
  | some s =>
    dsimp only
    by_cases hpos : need ≤ 0
    · rw [if_pos hpos, if_pos (Or.inl hpos)]
      exact .of_errors rfl rfl
    · rw [if_neg hpos]
      cases hacquire : s.acquire? need with
      | none =>
        dsimp only
        split
        · exact .of_errors rfl rfl
        · exact h.refines_block rfl fun w => ⟨s, _, rfl, WaitQueue.gains_enqueue s.attributes w s.waiters, rfl⟩
      | some s' =>
        -- What can be had now is no more than there can ever be.
        have hle : need ≤ s.count := (Semaphore.acquire?_eq_some.mp hacquire).2.1
        have hmax : ¬ s.maxCount < need := Int32.not_lt.mpr (Int32.le_trans hle (hsound s hs))
        rw [if_neg (not_or.mpr ⟨hpos, hmax⟩)]
        exact .of_done _

/-- Waiting for events is polling for them, or a place in the queue. -/
theorem Coherent.refines_waitEventFlag (h : k.Coherent) (r : EventRequest)
    (hout : r.outAddress = 0 ∨ (k.memory.locate r.outAddress 4).isOk = true) (timeoutAddress : UInt32) (callbacks : Bool) :
    Refines k (k.pollEventFlag id r) (k.waitEventFlag id r timeoutAddress callbacks) .eventFlagCondition
      { kind := .eventFlag, handle := id, argument := r.bits, mode := r.mode, resultAddress := r.outAddress,
        timeoutAddress, callbacks } r
      (TakesWaiter (k.objects.eventFlag? id) (·.waiters) fun f waiters => .eventFlag { f with waiters }) := by
  unfold pollEventFlag waitEventFlag
  cases hf : k.admitEventRequest id r with
  | error e => exact .of_errors rfl rfl
  | ok f =>
    have hget := ObjectTable.eventFlag?_eq_some.mpr (admitEventRequest_eq_ok hf).1
    dsimp only
    by_cases hmatched : r.matched f.pattern = true
    · rw [if_pos hmatched, if_pos hmatched]
      generalize k.put (.eventFlag (f.consume r)) = k₁
      cases k₁.memory.writeOptional r.outAddress f.pattern with
      | error e => exact .of_errors rfl rfl
      | ok m =>
        simp only [if_pos hmatched]
        exact .of_done _
    · rw [if_neg hmatched, if_neg hmatched]
      obtain ⟨m, hm⟩ := Memory.writeOptional_eq_ok hout f.pattern
      refine h.refines_block ?_ fun w => ⟨f, _, hget, WaitQueue.gains_enqueue f.attributes w f.waiters, rfl⟩
      rw [hm]
      simp only [if_neg hmatched]
      rfl

/-- Locking a mutex is trying to, or a place in the queue. -/
theorem Coherent.refines_lockMutex (h : k.Coherent) (count : Int32) (timeoutAddress : UInt32) (callbacks : Bool) :
    Refines k (k.tryLockMutex id count) (k.lockMutex id count timeoutAddress callbacks) .mutexLocked
      { kind := .mutex, handle := id, argument := count.toUInt32, timeoutAddress, callbacks } count
      (TakesWaiter (k.objects.mutex? id) (·.waiters) fun m waiters => .mutex { m with waiters }) := by
  unfold tryLockMutex lockMutex
  cases hl : k.attemptLock id count with
  | error e => exact .of_errors rfl rfl
  | ok found =>
    obtain ⟨m, attempt⟩ := found
    cases attempt with
    | acquired m' => exact .of_done _
    | contended =>
      obtain ⟨-, hget, -⟩ := attemptLock_eq_ok hl
      exact h.refines_block rfl fun w =>
        ⟨m, _, ObjectTable.mutex?_eq_some.mpr hget, WaitQueue.gains_enqueue m.attributes w m.waiters, rfl⟩

/-- A pipe call that is refused at once for good or done at once ends its twin the same way. -/
theorem refines_map {request : ρ} {queued : Waiter ρ → Object → Prop} :
    Refines k attempt (attempt.map fun _ => .completed 0) unsatisfied w request queued := by
  obtain ⟨result, k'⟩ := attempt
  cases result with
  | error e => exact .of_errors rfl rfl
  | ok u => exact .of_done k'

/-- Sending is trying to, or a place among the senders. -/
theorem Coherent.refines_sendPipe (h : k.Coherent) (r : PipeRequest) (timeoutAddress : UInt32) (callbacks : Bool) :
    Refines k (k.trySendPipe id r) (k.sendPipe id r timeoutAddress callbacks) .pipeFull
      (pipeWait id r timeoutAddress callbacks true) r
      (TakesWaiter (k.objects.messagePipe? id) (·.senders) fun p senders => .messagePipe { p with senders }) := by
  unfold sendPipe
  split
  · next k' hfull =>
    obtain ⟨rfl, p, hp, -⟩ := trySendPipe_full hfull
    obtain ⟨rfl, hget, -⟩ := admitPipeRequest_eq_ok hp
    have hfound := ObjectTable.messagePipe?_eq_some.mpr hget
    unfold blockOnPipe
    rw [hfound, hfull]
    exact h.refines_block rfl fun w => ⟨p, _, rfl, WaitQueue.gains_enqueue p.attributes w p.senders, rfl⟩
  · exact refines_map

/-- Receiving is trying to, or a place among the receivers. -/
theorem Coherent.refines_receivePipe (h : k.Coherent) (r : PipeRequest) (timeoutAddress : UInt32) (callbacks : Bool) :
    Refines k (k.tryReceivePipe id r) (k.receivePipe id r timeoutAddress callbacks) .pipeEmpty
      (pipeWait id r timeoutAddress callbacks false) r
      (TakesWaiter (k.objects.messagePipe? id) (·.receivers) fun p receivers => .messagePipe { p with receivers }) := by
  unfold receivePipe
  split
  · next k' hempty =>
    obtain ⟨rfl, p, hp, -⟩ := tryReceivePipe_empty hempty
    obtain ⟨rfl, hget, -⟩ := admitPipeRequest_eq_ok hp
    have hfound := ObjectTable.messagePipe?_eq_some.mpr hget
    unfold blockOnPipe
    rw [hfound, hempty]
    exact h.refines_block rfl fun w => ⟨p, _, rfl, WaitQueue.gains_enqueue p.attributes w p.receivers, rfl⟩
  · exact refines_map

/-- **Calls that block refine their twins that fail**, in every reachable kernel, for every object and every request. For
event flags the pointer for the pattern is null or four bytes are mapped there. -/
theorem blocking_refines_run (config : KernelConfig) (memory : Memory) (operations : List Operation)
    (hids : (Kernel.new config memory).handedOut operations < 2 ^ 32 - 1) (k : Kernel)
    (hk : k = (Kernel.new config memory).run operations) (id : ObjectId) (timeoutAddress : UInt32) (callbacks : Bool) :
    (∀ need, Refines k (k.pollSemaphore id need) (k.waitSemaphore id need timeoutAddress callbacks) .semaphoreZero
      { kind := .semaphore, handle := id, argument := need.toUInt32, timeoutAddress, callbacks } need
      (TakesWaiter (k.objects.semaphore? id) (·.waiters) fun s waiters => .semaphore { s with waiters })) ∧
    (∀ r : EventRequest, r.outAddress = 0 ∨ (k.memory.locate r.outAddress 4).isOk = true →
      Refines k (k.pollEventFlag id r) (k.waitEventFlag id r timeoutAddress callbacks) .eventFlagCondition
        { kind := .eventFlag, handle := id, argument := r.bits, mode := r.mode, resultAddress := r.outAddress,
          timeoutAddress, callbacks } r
        (TakesWaiter (k.objects.eventFlag? id) (·.waiters) fun f waiters => .eventFlag { f with waiters })) ∧
    (∀ count, Refines k (k.tryLockMutex id count) (k.lockMutex id count timeoutAddress callbacks) .mutexLocked
      { kind := .mutex, handle := id, argument := count.toUInt32, timeoutAddress, callbacks } count
      (TakesWaiter (k.objects.mutex? id) (·.waiters) fun m waiters => .mutex { m with waiters })) ∧
    (∀ r, Refines k (k.trySendPipe id r) (k.sendPipe id r timeoutAddress callbacks) .pipeFull
      (pipeWait id r timeoutAddress callbacks true) r
      (TakesWaiter (k.objects.messagePipe? id) (·.senders) fun p senders => .messagePipe { p with senders })) ∧
    ∀ r, Refines k (k.tryReceivePipe id r) (k.receivePipe id r timeoutAddress callbacks) .pipeEmpty
      (pipeWait id r timeoutAddress callbacks false) r
      (TakesWaiter (k.objects.messagePipe? id) (·.receivers) fun p receivers => .messagePipe { p with receivers }) := by
  subst hk
  have hcoherent := (placed_run config memory operations hids).1.1
  refine ⟨fun need => hcoherent.refines_waitSemaphore ?_ need timeoutAddress callbacks,
    fun r hout => hcoherent.refines_waitEventFlag r hout timeoutAddress callbacks,
    fun count => hcoherent.refines_lockMutex count timeoutAddress callbacks,
    fun r => hcoherent.refines_sendPipe r timeoutAddress callbacks,
    fun r => hcoherent.refines_receivePipe r timeoutAddress callbacks⟩
  intro s hs
  exact (semaphoreSound_run config memory operations hs).atMost

/-- The first thread holds a mutex, has filled one of two pipes and sleeps; the second one runs. -/
def nothingToHave : List Operation :=
  [.syscall (.createThread "first" 0x08900000 32 0x1000 0), .syscall (.createThread "second" 0x08900000 33 0x1000 0),
    .syscall (.startThread 1 0 0), .syscall (.startThread 2 0 0), .dispatch,
    .syscall (.createSemaphore "units" 0 0 2), .syscall (.createEventFlag "flag" 0 2), .syscall (.createMutex "lock" 0 1),
    .syscall (.createPipe "empty" 2 0 8), .syscall (.createPipe "full" 2 0 8),
    .syscall (.trySendPipe 7 ⟨0x08800000, 8, 0, 0⟩), .syscall (.sleepThread false), .dispatch]

/-- Whatever the second thread asks for it has to wait, and so each attempt fails for that reason. -/
theorem blocking_refines_nothingToHave :
    let k := (Kernel.new {} {}).run nothingToHave
    ((k.waitSemaphore 3 1 0 false).result = .ok .blocked ∧ (k.pollSemaphore 3 1).result = .error .semaphoreZero) ∧
    ((k.waitEventFlag 4 ⟨1, 0, 0x08800100⟩ 0 false).result = .ok .blocked ∧
      (k.pollEventFlag 4 ⟨1, 0, 0x08800100⟩).result = .error .eventFlagCondition) ∧
    ((k.lockMutex 5 1 0 true).result = .ok .blocked ∧ (k.tryLockMutex 5 1).result = .error .mutexLocked) ∧
    ((k.sendPipe 7 ⟨0x08800000, 1, 0, 0⟩ 0 false).result = .ok .blocked ∧
      (k.trySendPipe 7 ⟨0x08800000, 1, 0, 0⟩).result = .error .pipeFull) ∧
    ((k.receivePipe 6 ⟨0x08800000, 1, 0, 0⟩ 0 false).result = .ok .blocked ∧
      (k.tryReceivePipe 6 ⟨0x08800000, 1, 0, 0⟩).result = .error .pipeEmpty) := by
  have hids : (Kernel.new {} {}).handedOut nothingToHave < 2 ^ 32 - 1 := handedOut_lt (by decide)
  have hsemaphore := (blocking_refines_run {} {} nothingToHave hids _ rfl 3 0 false).1 1
  have hflag := (blocking_refines_run {} {} nothingToHave hids _ rfl 4 0 false).2.1 ⟨1, 0, 0x08800100⟩
    (Or.inr (by decide +kernel))
  have hmutex := (blocking_refines_run {} {} nothingToHave hids _ rfl 5 0 true).2.2.1 1
  have hsend := (blocking_refines_run {} {} nothingToHave hids _ rfl 7 0 false).2.2.2.1 ⟨0x08800000, 1, 0, 0⟩
  have hreceive := (blocking_refines_run {} {} nothingToHave hids _ rfl 6 0 false).2.2.2.2 ⟨0x08800000, 1, 0, 0⟩
  have hblocked : ((Kernel.new {} {}).run nothingToHave |>.waitSemaphore 3 1 0 false).result = .ok .blocked ∧
      ((Kernel.new {} {}).run nothingToHave |>.waitEventFlag 4 ⟨1, 0, 0x08800100⟩ 0 false).result = .ok .blocked ∧
      ((Kernel.new {} {}).run nothingToHave |>.lockMutex 5 1 0 true).result = .ok .blocked ∧
      ((Kernel.new {} {}).run nothingToHave |>.sendPipe 7 ⟨0x08800000, 1, 0, 0⟩ 0 false).result = .ok .blocked ∧
      ((Kernel.new {} {}).run nothingToHave |>.receivePipe 6 ⟨0x08800000, 1, 0, 0⟩ 0 false).result = .ok .blocked := by
    decide +kernel
  obtain ⟨h₁, h₂, h₃, h₄, h₅⟩ := hblocked
  exact ⟨⟨h₁, hsemaphore.blocks h₁⟩, ⟨h₂, hflag.blocks h₂⟩, ⟨h₃, hmutex.blocks h₃⟩, ⟨h₄, hsend.blocks h₄⟩,
    ⟨h₅, hreceive.blocks h₅⟩⟩

/-- A thread runs, and there is an event flag without bits. -/
def emptyFlag : List Operation :=
  [.syscall (.createThread "waiter" 0x08900000 32 0x1000 0), .syscall (.startThread 1 0 0), .dispatch,
    .syscall (.createEventFlag "flag" 0 0)]

/-- Two bytes before the end of main memory an address is mapped and a word is not: there the wait blocks, and the poll
reports the pointer and not the bits that are missing. -/
theorem poll_reports_fault :
    let k := (Kernel.new {} {}).run emptyFlag
    (k.memory.translate 0x09FFFFFE).isOk = true ∧
    (k.waitEventFlag 2 ⟨1, 1, 0x09FFFFFE⟩ 0 false).result = .ok .blocked ∧
    (k.pollEventFlag 2 ⟨1, 1, 0x09FFFFFE⟩).result = .error (.memory (.invalidAddress 0x09FFFFFE)) := by
  decide +kernel

end Kernel
end GuestKernel
