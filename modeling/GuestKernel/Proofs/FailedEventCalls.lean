/-
# What a failed event call spends

A thread that waits for events, or polls for them, and gets an error has changed no thread and no queue. Of the flag it
may have changed the pattern: a request that is satisfied clears its bits first and reports the pattern it saw after that,
so a pointer that cannot be written to is found out too late.

| the request is | the call fails if | the flag then |
| --- | --- | --- |
| not admitted | always | is as it was |
| admitted, not satisfied, polled | always | is as it was |
| admitted, not satisfied, waited for | the timeout cannot be read, or nobody can be parked | is as it was |
| satisfied | the pattern cannot be reported | has lost the bits that the request clears |

The first three hold the whole kernel but for the journal, and the guest word that a poll reports the pattern in
(`spends_of_failedEventCall`). In the last row events are lost to every thread (`failedEventCall_not_atomic`).

Source: specification, 4.6 and 7.
-/

import GuestKernel.Proofs.FailedCalls

namespace GuestKernel

/-- The flag and the request of a call that waits for events or polls for them. -/
def Syscall.eventRequest? : Syscall → Option (ObjectId × EventRequest)
  | waitEventFlag id r _ _ | pollEventFlag id r => some (id, r)
  | _ => none

namespace Kernel

variable {k k' : Kernel} {α β : Type} {id : ObjectId} {r : EventRequest} {f : EventFlag}

/-- If the call fails, then either the request was not satisfied and nothing has changed but the journal and guest memory,
or it was, its bits are cleared, and the pattern could not be reported. -/
def Spends (k : Kernel) (id : ObjectId) (r : EventRequest) (reply : Reply α) : Prop :=
  ∀ e, reply.result = .error e →
    ((∀ f, k.admitEventRequest id r = .ok f → r.matched f.pattern = false) ∧
      ∃ memory journal, reply.kernel = { k with memory, journal }) ∨
    ∃ f fault journal, k.admitEventRequest id r = .ok f ∧ r.matched f.pattern = true ∧
      k.memory.writeOptional r.outAddress f.pattern = .error fault ∧ e = .memory fault.error ∧
      reply.kernel = { k with objects := k.objects.put (.eventFlag (f.consume r)), journal }

theorem Spends.map {reply : Reply α} (h : k.Spends id r reply) (g : α → β) : k.Spends id r (reply.map g) := by
  intro e he
  refine h e ?_
  change reply.result.map g = .error e at he
  cases hr : reply.result with
  | ok a =>
    rw [hr] at he
    cases he
  | error e' =>
    rw [hr] at he
    cases he
    rfl

/-- A request that is not satisfied. -/
theorem Spends.of_unmatched {reply : Reply α}
    (hno : ∀ f, k.admitEventRequest id r = .ok f → r.matched f.pattern = false)
    (h : ∀ e, reply.result = .error e → ∃ memory journal, reply.kernel = { k with memory, journal }) :
    k.Spends id r reply :=
  fun e he => Or.inl ⟨hno, h e he⟩

/-- A request that is not admitted is not satisfied. -/
theorem spends_refuse {e : KernelError} (h : k.admitEventRequest id r = .error e) :
    k.Spends id r (k.refuse e : Reply α) := by
  refine .of_unmatched (fun f hf => ?_) fun _ _ => ⟨k.memory, k.journal, rfl⟩
  rw [h] at hf
  cases hf

/-- A request that is satisfied has its bits cleared when the report is tried; what follows cannot fail. -/
theorem spends_report (hf : k.admitEventRequest id r = .ok f) (hm : r.matched f.pattern = true)
    {g : Except Fault Memory → Reply α} (hok : ∀ m, (g (.ok m)).result.isOk = true)
    (herror : ∀ fault, g (.error fault) = (k.put (.eventFlag (f.consume r))).fault fault) :
    k.Spends id r (g (k.memory.writeOptional r.outAddress f.pattern)) := by
  intro e he
  cases hwrite : k.memory.writeOptional r.outAddress f.pattern with
  | ok m =>
    have hsucceeds := hok m
    rw [← hwrite, he] at hsucceeds
    cases hsucceeds
  | error fault =>
    rw [hwrite, herror] at he
    rw [herror]
    cases he
    exact Or.inr ⟨f, fault, _, hf, hm, hwrite, rfl, rfl⟩

/-- A wait that fails may have spent its bits. -/
theorem spends_waitEventFlag (k : Kernel) (id : ObjectId) (r : EventRequest) (timeoutAddress : UInt32)
    (callbacks : Bool) : k.Spends id r (k.waitEventFlag id r timeoutAddress callbacks) := by
  unfold waitEventFlag
  split
  · next e hf => exact spends_refuse hf
  · next f hf =>
    split
    · next hm =>
      exact spends_report hf hm (g := fun m => ((k.put (.eventFlag (f.consume r))).withMemory m).map fun _ =>
        WaitOutcome.completed 0) (fun _ => rfl) fun _ => rfl
    · next hm =>
      refine .of_unmatched (fun f' hf' => ?_) fun e he => ?_
      · rw [hf] at hf'
        cases hf'
        exact Bool.eq_false_iff.mpr hm
      · obtain ⟨k', e', -, hnoted, hblock⟩ | ⟨t, timeout, -, -, -, hblock⟩ := block_cases k _ r _ <;> rw [hblock] at he ⊢
        · exact ⟨k.memory, k'.journal, hnoted⟩
        · cases he

/-- A poll that fails may have spent its bits. -/
theorem spends_pollEventFlag (k : Kernel) (id : ObjectId) (r : EventRequest) :
    k.Spends id r (k.pollEventFlag id r) := by
  unfold pollEventFlag
  split
  · next e hf => exact spends_refuse hf
  · next f hf =>
    dsimp only
    cases hm : r.matched f.pattern with
    | true =>
      exact spends_report hf hm (g := fun m => ((k.put (.eventFlag (f.consume r))).withMemory m).andThen
        fun _ k => k.done ()) (fun _ => rfl) fun _ => rfl
    | false =>
      refine .of_unmatched (fun f' hf' => ?_) fun e he => ?_
      · rw [hf] at hf'
        cases hf'
        exact hm
      · -- The pattern seen is reported all the same.
        show ∃ memory journal, ((k.withMemory (k.memory.writeOptional r.outAddress f.pattern)).andThen
          fun _ k => (k.refuse .eventFlagCondition : Reply Unit)).kernel = { k with memory, journal }
        cases k.memory.writeOptional r.outAddress f.pattern with
        | ok m => exact ⟨m, k.journal, rfl⟩
        | error fault => exact ⟨k.memory, _, rfl⟩

/-- A call with an event request spends its bits at worst, when it fails. -/
theorem spends_perform {call : Syscall} (hcall : call.eventRequest? = some (id, r)) : k.Spends id r (k.perform call) := by
  cases call with
  | waitEventFlag =>
    cases hcall
    exact Spends.map (spends_waitEventFlag k id r _ _) _
  | pollEventFlag =>
    cases hcall
    exact Spends.map (spends_pollEventFlag k id r) _
  | _ => cases hcall

/-- Whom a request is admitted to is registered under the id. -/
theorem get?_of_admitEventRequest (h : k.admitEventRequest id r = .ok f) : k.objects.get? f.id = some (.eventFlag f) := by
  unfold admitEventRequest at h
  split at h
  · cases h
  · next f' hf =>
    have hget := ObjectTable.eventFlag?_eq_some.mp hf
    have hid : f'.id = id := ObjectTable.id_of_get? hget
    split at h
    · cases h
    · split at h
      · cases h
      · cases h
        exact hid ▸ hget

theorem eventFlag?_put (f : EventFlag) (x : ObjectId) :
    (k.objects.put (.eventFlag f)).eventFlag? x = if f.id = x then some f else k.objects.eventFlag? x := by
  have hid : (Object.eventFlag f).id = f.id := rfl
  unfold ObjectTable.eventFlag?
  rw [ObjectTable.get?_put, hid]
  by_cases hx : f.id = x
  · rw [if_pos hx, if_pos hx]
  · rw [if_neg hx, if_neg hx]

/-- Clearing bits leaves the queue alone. -/
theorem waiters_consume (h : k.admitEventRequest id r = .ok f) (x : ObjectId) :
    ((k.objects.put (.eventFlag (f.consume r))).eventFlag? x).map (·.waiters) =
      (k.objects.eventFlag? x).map (·.waiters) := by
  have hid : (f.consume r).id = f.id := rfl
  rw [eventFlag?_put, hid]
  split
  · next hx =>
    rw [← hx, ObjectTable.eventFlag?_eq_some.mpr (get?_of_admitEventRequest h)]
    rfl
  · rfl

/-- **A failed event call spends at most its bits.** A call that waits for events or polls for them and fails leaves
every thread, every queue of an event flag and the scheduler as they are. If the request was not satisfied, all flags are
as they were, with everything else but the journal and guest memory. If it was, the pattern it saw could not be reported,
and the bits that it clears are cleared. -/
theorem spends_of_failedEventCall (k : Kernel) (call : Syscall) (id : ObjectId) (r : EventRequest)
    (hcall : call.eventRequest? = some (id, r)) (e : KernelError) (he : (k.perform call).result = .error e) :
    (∀ thread, (k.perform call).kernel.thread? thread = k.thread? thread) ∧
      (k.perform call).kernel.ready = k.ready ∧ (k.perform call).kernel.current = k.current ∧
      (∀ x, ((k.perform call).kernel.objects.eventFlag? x).map (·.waiters) =
        (k.objects.eventFlag? x).map (·.waiters)) ∧
      (((∀ f, k.admitEventRequest id r = .ok f → r.matched f.pattern = false) ∧
          ∃ memory journal, (k.perform call).kernel = { k with memory, journal }) ∨
        ∃ f fault journal, k.admitEventRequest id r = .ok f ∧ r.matched f.pattern = true ∧
          k.memory.writeOptional r.outAddress f.pattern = .error fault ∧ e = .memory fault.error ∧
          (k.perform call).kernel =
            { k with
              objects := k.objects.put (.eventFlag { f with pattern := r.cleared f.pattern }), journal }) := by
  have hspends := spends_perform hcall e he
  refine ⟨?_, ?_, ?_, ?_, hspends⟩
  all_goals obtain ⟨-, memory, journal, heq⟩ | ⟨f, fault, journal, hf, -, -, -, heq⟩ := hspends <;> rw [heq]
  · exact fun _ => rfl
  · exact thread?_put_of_kind_ne (o := .eventFlag f) (.eventFlag (f.consume r)) (get?_of_admitEventRequest hf) nofun
      rfl rfl
  · exact fun _ => rfl
  · exact waiters_consume hf

/-- A thread runs, and there is an event flag with two bits set. -/
def twoEvents : List Operation :=
  [.syscall (.createThread "main" 0x08900000 32 0x1000 0), .syscall (.startThread 1 0 0), .dispatch,
    .syscall (.createEventFlag "events" 0 3)]

/-- A wait and a poll for the lowest bit that clear it, and that are given a bad pointer for the pattern. -/
def misreportedWait : Syscall := .waitEventFlag 2 ⟨1, EventRequest.clearBits, 1⟩ 0 false
def misreportedPoll : Syscall := .pollEventFlag 2 ⟨1, EventRequest.clearBits, 1⟩

/-- **A failed event call is not atomic**: the wait fails and the poll fails, and either way the bit is gone. -/
theorem failedEventCall_not_atomic :
    (((Kernel.new {} {}).run twoEvents).objects.eventFlag? 2).map (·.pattern) = some 3 ∧
      (((Kernel.new {} {}).run twoEvents).perform misreportedWait).result = .error (.memory (.invalidAddress 1)) ∧
      ((((Kernel.new {} {}).run twoEvents).perform misreportedWait).kernel.objects.eventFlag? 2).map (·.pattern) = some 2 ∧
      (((Kernel.new {} {}).run twoEvents).perform misreportedPoll).result = .error (.memory (.invalidAddress 1)) ∧
      ((((Kernel.new {} {}).run twoEvents).perform misreportedPoll).kernel.objects.eventFlag? 2).map (·.pattern) = some 2 := by
  decide +kernel

/-- The bit is lost, and the thread that asked for it is left alone. -/
theorem spends_of_failedEventCall_twoEvents :
    (((Kernel.new {} {}).run twoEvents).perform misreportedWait).result = .error (.memory (.invalidAddress 1)) ∧
      (((Kernel.new {} {}).run twoEvents).perform misreportedWait).kernel.thread? 1 =
        ((Kernel.new {} {}).run twoEvents).thread? 1 := by
  have hfails : (((Kernel.new {} {}).run twoEvents).perform misreportedWait).result =
      .error (.memory (.invalidAddress 1)) := by
    decide +kernel
  exact ⟨hfails, (spends_of_failedEventCall _ misreportedWait 2 _ rfl _ hfails).1 1⟩

end Kernel
end GuestKernel
