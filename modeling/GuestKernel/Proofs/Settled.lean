/-
# Who sleeps at the front of a queue

Semaphores and message pipes serve their queues from the front. A call that gives units or moves bytes goes on until the
request at the front cannot be served, and a request that finds its queue empty is queued because it cannot be served.
Whoever is turned away like that cannot be served before the next call on the object is carried out, since only such calls
change what there is to give. A request that could be served comes to the front by other ways only.

| the front passes to it | when |
| --- | --- |
| the waiter before it leaves unserved | its timeout has run out, or its thread has died |
| it is queued before the others | the queue is ordered by priority |

Nobody looks at the queue then, and the request sleeps until the next call on the object is carried out
(`not_settled_passedFronts`). Each queue of a pipe is on its own in this: as long as the one at the front is the one that
was turned away there, it cannot be served, whatever has become of the other queue (`settled_run`).

Source: specification, 4.4 to 4.6.
-/

import GuestKernel.Proofs.ObjectMoves
import GuestKernel.Proofs.QueueEntries

namespace GuestKernel

/-! ### What a queue asks for -/

/-- Who is queued where nobody was is alone in the queue. -/
theorem WaitQueue.entries_enqueue_of_nil {ρ : Type} {q : WaitQueue ρ} {demand : ρ → Demand} (h : q.entries demand = [])
    (attributes : UInt32) (w : Waiter ρ) :
    (q.enqueue attributes w).entries demand = [(w.thread, demand w.request)] := by
  have hperm := entries_enqueue attributes w q demand
  rw [h] at hperm
  exact List.perm_singleton.mp hperm

namespace Object

/-- A queue of a semaphore or of a pipe, which is served from the front. -/
def served : Object → Line → List (ThreadId × Demand)
  | semaphore s, .semaphore => s.waiters.entries .units
  | messagePipe p, .senders => p.senders.entries .send
  | messagePipe p, .receivers => p.receivers.entries .receive
  | _, _ => []

/-- Whether a semaphore has the units, or a pipe the bytes or the room, to serve a request now. -/
def meets : Object → Demand → Bool
  | semaphore s, .units need => need ≤ s.count
  | messagePipe p, .send r => (p.sendAmount? r).isSome
  | messagePipe p, .receive r => (p.receiveAmount? r).isSome
  | _, _ => false

/-- Whoever is at the front of the queue cannot be served. -/
def Settled (o : Object) (l : Line) : Prop := ∀ e ∈ (o.served l).head?, o.meets e.2 = false

instance (o : Object) (l : Line) : Decidable (o.Settled l) :=
  inferInstanceAs (Decidable (∀ e ∈ (o.served l).head?, o.meets e.2 = false))

variable {o o' : Object} {l : Line} {p : MessagePipe} {w : Waiter PipeRequest}

/-- An object without waiters has none in any of its queues. -/
theorem served_of_entries_eq_nil (h : o.entries = []) (l : Line) : o.served l = [] := by
  cases o with
  | semaphore s => cases l <;> first | exact h | rfl
  | messagePipe p =>
    have hboth := List.append_eq_nil_iff.mp h
    cases l with
    | senders => exact hboth.1
    | receivers => exact hboth.2
    | _ => rfl
  | _ => rfl

/-- A queue with somebody in it is one of a semaphore or of a pipe. -/
theorem kind_of_served_ne (h : o.served l ≠ []) :
    o.kind = l.kind ∧ (o.kind = .semaphore ∨ o.kind = .messagePipe) := by
  cases o with
  | semaphore s => cases l <;> first | exact ⟨rfl, Or.inl rfl⟩ | exact absurd rfl h
  | messagePipe p => cases l <;> first | exact ⟨rfl, Or.inr rfl⟩ | exact absurd rfl h
  | _ => exact absurd rfl h

/-- Nobody sleeps at the front of an empty queue. -/
theorem settled_of_served_eq_nil (h : o.served l = []) : o.Settled l := by
  unfold Settled
  rw [h]
  exact nofun

/-! ### Waiters who come and go -/

/-- Waiters have left at most: there is as much to give as before, and nobody has come to an empty queue. -/
structure OnlyWaitersLeave (o o' : Object) : Prop where
  meets_eq : o'.meets = o.meets
  served_eq_nil : ∀ l, o.served l = [] → o'.served l = []

/-- Waiters have come or left at most: there is as much to give as before, and who has come to an empty queue cannot be
served. -/
structure OnlyWaitersChange (o o' : Object) : Prop where
  meets_eq : o'.meets = o.meets
  settled : ∀ l, o.served l = [] → o'.Settled l

theorem OnlyWaitersLeave.refl (o : Object) : o.OnlyWaitersLeave o := ⟨rfl, fun _ h => h⟩

theorem OnlyWaitersLeave.trans {o₁ o₂ o₃ : Object} (h : o₁.OnlyWaitersLeave o₂) (h' : o₂.OnlyWaitersLeave o₃) :
    o₁.OnlyWaitersLeave o₃ :=
  ⟨h'.meets_eq.trans h.meets_eq, fun l hl => h'.served_eq_nil l (h.served_eq_nil l hl)⟩

/-- Leaving is a change of the waiters. -/
theorem OnlyWaitersLeave.change (h : o.OnlyWaitersLeave o') : o.OnlyWaitersChange o' :=
  ⟨h.meets_eq, fun l hl => settled_of_served_eq_nil (h.served_eq_nil l hl)⟩

/-- Whoever gives up takes nothing with it. -/
theorem onlyWaitersLeave_removeWaiter (o : Object) (id : ThreadId) : o.OnlyWaitersLeave (o.removeWaiter id) := by
  have hremove : ∀ {ρ : Type} {demand : ρ → Demand} (q : WaitQueue ρ),
      q.entries demand = [] → (q.remove id).entries demand = [] := by
    intro ρ demand q hq
    rw [List.map_eq_nil_iff.mp hq]
    rfl
  cases o with
  | semaphore s =>
    refine ⟨funext fun d => by cases d <;> rfl, fun l h => ?_⟩
    cases l with
    | semaphore => exact hremove s.waiters h
    | _ => rfl
  | messagePipe p =>
    unfold removeWaiter
    dsimp only
    split <;> refine ⟨funext fun d => by cases d <;> rfl, fun l h => ?_⟩
    · cases l with
      | senders => exact hremove p.senders h
      | _ => exact h
    · cases l with
      | receivers => exact hremove p.receivers h
      | _ => exact h
  | _ => exact ⟨rfl, fun _ _ => rfl⟩

/-- A step that is not a call on the object at most takes waiters off it. -/
theorem Step.onlyWaitersLeave {label : Label} (h : o.Step label o') (hlabel : ¬ label.Changes o'.kind o'.id) :
    o.OnlyWaitersLeave o' := by
  cases h with
  | same => exact .refl o
  | change heq hc =>
    subst heq
    exact absurd ⟨hc.kind_eq.symm, hc.id_eq.symm⟩ hlabel
  | enqueue heq hq =>
    subst heq
    exact absurd ⟨hq.kind_eq.symm, hq.id_eq.symm⟩ hlabel
  | leave => exact onlyWaitersLeave_removeWaiter ..

/-- A request for units is queued if they are not there or others wait for theirs. -/
theorem onlyWaitersChange_enqueue {s : Semaphore} {w : Waiter Int32} (h : s.acquire? w.request = none) :
    (semaphore s).OnlyWaitersChange (semaphore (s.enqueue w)) := by
  refine ⟨funext fun d => by cases d <;> rfl, fun l hl => ?_⟩
  cases l with
  | semaphore =>
    intro e he
    rw [show (semaphore (s.enqueue w)).served .semaphore = _ from
      WaitQueue.entries_enqueue_of_nil hl s.attributes w] at he
    cases he
    refine decide_eq_false fun hneed => ?_
    rw [Semaphore.acquire?, if_pos ⟨List.isEmpty_iff.mpr (List.map_eq_nil_iff.mp hl), hneed⟩] at h
    cases h
  | _ => exact settled_of_served_eq_nil rfl

/-- A sender is queued if the pipe has no room for it or others wait for theirs. -/
theorem onlyWaitersChange_enqueueSender (h : p.senders = [] → p.sendAmount? w.request = none) :
    (messagePipe p).OnlyWaitersChange (messagePipe (p.enqueueSender w)) := by
  refine ⟨funext fun d => by cases d <;> rfl, fun l hl => ?_⟩
  cases l with
  | senders =>
    intro e he
    rw [show (messagePipe (p.enqueueSender w)).served .senders = _ from
      WaitQueue.entries_enqueue_of_nil hl p.attributes w] at he
    cases he
    exact congrArg Option.isSome (h (List.map_eq_nil_iff.mp hl))
  | _ => exact settled_of_served_eq_nil hl

/-- A receiver is queued if the pipe has too few bytes for it or others wait for theirs. -/
theorem onlyWaitersChange_enqueueReceiver (h : p.receivers = [] → p.receiveAmount? w.request = none) :
    (messagePipe p).OnlyWaitersChange (messagePipe (p.enqueueReceiver w)) := by
  refine ⟨funext fun d => by cases d <;> rfl, fun l hl => ?_⟩
  cases l with
  | receivers =>
    intro e he
    rw [show (messagePipe (p.enqueueReceiver w)).served .receivers = _ from
      WaitQueue.entries_enqueue_of_nil hl p.attributes w] at he
    cases he
    exact congrArg Option.isSome (h (List.map_eq_nil_iff.mp hl))
  | _ => exact settled_of_served_eq_nil hl

/-! ### Calls that serve -/

/-- A pipe that has served all it can leaves no front that could be served. -/
theorem settled_of_idle (h : p.Idle) (l : Line) : (messagePipe p).Settled l := by
  intro e he
  cases l with
  | senders =>
    obtain ⟨w, hw, rfl⟩ := Option.map_eq_some_iff.mp (List.head?_map .. ▸ he)
    exact congrArg Option.isSome (h.sender w hw)
  | receivers =>
    obtain ⟨w, hw, rfl⟩ := Option.map_eq_some_iff.mp (List.head?_map .. ▸ he)
    exact congrArg Option.isSome (h.receiver w hw)
  | _ => cases he

end Object

/-- Units are served out until the request at the front is too large. -/
theorem Semaphore.serve_settles (count : Int32) (q : WaitQueue Int32) :
    ∀ w ∈ (serve count q).2.1.head?, (serve count q).1 < w.request := by
  induction q generalizing count with
  | nil => exact nofun
  | cons w₀ rest ih =>
    unfold serve
    split
    · next hlt =>
      intro w hw
      rw [List.head?_cons, Option.mem_def, Option.some.injEq] at hw
      exact hw ▸ hlt
    · exact ih (count - w₀.request)

/-- A signal leaves no front that could be served. -/
theorem Object.settled_release (s : Semaphore) (amount : Int32) (l : Line) :
    (semaphore (s.release amount).1).Settled l := by
  intro e he
  cases l with
  | semaphore =>
    obtain ⟨w, hw, rfl⟩ := Option.map_eq_some_iff.mp (List.head?_map .. ▸ he)
    exact decide_eq_false (Int32.not_le.mpr (Semaphore.serve_settles (s.count + amount) s.waiters w hw))
  | _ => cases he

/-- An answer to a caller that does not wait. -/
def Answer.isFinal : Answer → Bool
  | outcome .blocked => false
  | _ => true

/-- Whether a call has been carried out: neither refused, nor left waiting. -/
def Reply.isCarriedOut (r : Reply Answer) : Bool :=
  match r.result with
  | .ok a => a.isFinal
  | .error _ => false

namespace Kernel

variable {k : Kernel} {x : ObjectId} {o o' : Object} {l : Line} {op : Operation} {k' : Kernel} {reply : Reply Answer}
  {call : Syscall} {on : ObjectKind × ObjectId} {before : Option (ThreadId × Demand)} {e : KernelError}
  {amount need count : Int32} {timeoutAddress waitingAddress sendersAddress receiversAddress : UInt32}
  {callbacks : Bool} {r : PipeRequest}

/-- How a semaphore or a pipe comes out of an operation, `carriedOut` if it is a call on it that is: nobody is queued, or
all have been served that could be, or waiters have come or left at most. -/
inductive QueuesAfter (k : Kernel) (x : ObjectId) (carriedOut : Bool) (o' : Object) : Prop where
  | empty (h : ∀ l, o'.served l = [])
  | served (hcarried : carriedOut = true) (h : ∀ l, o'.Settled l)
  | waiters {o : Object} (hcarried : carriedOut = false) (ho : k.objects.get? x = some o) (h : o.OnlyWaitersChange o')

/-- An operation that is not a call on the object at most takes waiters off it, or makes it. -/
theorem queuesAfter_other (hn : k.started.Nodup) (h : (k.after op).objects.get? x = some o')
    (hk : o'.kind = .semaphore ∨ o'.kind = .messagePipe) (hop : op.object? ≠ some (o'.kind, x)) :
    k.QueuesAfter x false o' := by
  have hthread : o'.kind ≠ .thread := by rcases hk with hk | hk <;> rw [hk] <;> nofun
  have hcallback : o'.kind ≠ .callback := by rcases hk with hk | hk <;> rw [hk] <;> nofun
  have hall : ∃ o, ((∀ l, o.served l = []) ∨ k.objects.get? x = some o) ∧ o.OnlyWaitersLeave o' := by
    refine object_after hn h hthread
      (R := fun o₂ => ∃ o, ((∀ l, o.served l = []) ∨ k.objects.get? x = some o) ∧ o.OnlyWaitersLeave o₂)
      (fun o ho _ => ⟨o, Or.inr ho, .refl o⟩)
      (fun o hnew _ _ _ => ⟨o, Or.inl (Object.served_of_entries_eq_nil hnew.entries_eq), .refl o⟩) ?_
    rintro label o₁ o₂ hlabel hkind hid hstep ⟨o, ho, hleave⟩
    have hspares : ¬ label.Changes o₂.kind o₂.id := by
      rw [hkind, hid]
      exact hlabel.not_changes hop hthread hcallback
    exact ⟨o, ho, hleave.trans (hstep.onlyWaitersLeave hspares)⟩
  obtain ⟨o, hempty | ho, hleave⟩ := hall
  · exact .empty fun l => hleave.served_eq_nil l (hempty l)
  · exact .waiters rfl ho hleave.change

/-- A call on the object of an id leaves its queues as `QueuesAfter` says. -/
def CallSettles (k : Kernel) (x : ObjectId) (reply : Reply Answer) : Prop :=
  ∀ o', reply.kernel.objects.get? x = some o' → o'.kind ≠ .thread → k.QueuesAfter x reply.isCarriedOut o'

/-- A refused call leaves the object as it was. -/
theorem callSettles_refuse {α : Type} (hquiet : Quiet k k') (f : α → Answer) :
    k.CallSettles x ((k'.refuse e).map f) := by
  intro o' h _
  replace h : k'.objects.get? x = some o' := h
  rw [hquiet.objects] at h
  exact .waiters rfl h (Object.OnlyWaitersLeave.refl o').change

/-- After a call that stores the object and goes on with guest memory and with threads, the object is the one stored. -/
theorem object_of_put (hid : o.id = x) (hthreads : OnlyThreads (k.put o) k')
    (h : k'.objects.get? x = some o') (hk : o'.kind ≠ .thread) : o' = o := by
  have hget := hthreads.get?_eq h hk
  rw [show (k.put o).objects.get? x = some o from (ObjectTable.get?_put ..).trans (if_pos hid), Option.some.injEq] at hget
  exact hget.symm

/-- A call that empties the queues, whether or not it is carried out to its end. -/
theorem callSettles_empty (hid : o.id = x) (hthreads : OnlyThreads (k.put o) reply.kernel)
    (ho : o.entries = []) : k.CallSettles x reply := by
  intro o' h hk
  rw [object_of_put hid hthreads h hk]
  exact .empty (Object.served_of_entries_eq_nil ho)

/-- A call that parks the caller and queues it on the object. -/
theorem callSettles_block {ρ : Type} {w : Wait} {request : ρ} {queue : Waiter ρ → Object}
    (ho : k.objects.get? x = some o) (hid : ∀ w, (queue w).id = x)
    (hq : ∀ thread priority, o.OnlyWaitersChange (queue ⟨thread, priority, request⟩)) :
    k.CallSettles x ((k.block w request queue).map .outcome) := by
  obtain ⟨k', e, hquiet, -, h⟩ | ⟨t, timeout, -, -, -, h⟩ := block_cases k w request queue <;> rw [h]
  · exact callSettles_refuse hquiet _
  · intro o' ho' _
    rw [show o' = queue ⟨t.id, t.priority, request⟩ from Option.some.inj
      (ho'.symm.trans ((ObjectTable.get?_put ..).trans (if_pos (hid _))))]
    exact .waiters rfl ho (hq t.id t.priority)

/-- A signal serves those at the front as long as there are units for them. -/
theorem callSettles_signalSemaphore : k.CallSettles x (k.perform (.signalSemaphore x amount)) := by
  show k.CallSettles x ((k.signalSemaphore x amount).map fun _ => .done)
  unfold signalSemaphore
  split
  · exact callSettles_refuse (Quiet.refl k) _
  · next s hs =>
    have hid : s.id = x := ObjectTable.id_of_get? (ObjectTable.semaphore?_eq_some.mp hs)
    split
    · exact callSettles_refuse (Quiet.refl k) _
    · split
      · exact callSettles_refuse (Quiet.refl k) _
      · intro o' h hk
        rw [object_of_put (o := .semaphore (s.release amount).1) hid (onlyThreads_wakeAll ..) h hk]
        exact .served rfl (Object.settled_release s amount)

/-- Units are taken where nobody is queued, and nobody is then. -/
theorem callSettles_acquire {s s' : Semaphore} (hs : k.objects.semaphore? x = some s) (hacquire : s.acquire? need = some s')
    (hkernel : reply.kernel = k.put (.semaphore s')) : k.CallSettles x reply := by
  obtain ⟨hempty, -, rfl⟩ := Semaphore.acquire?_eq_some.mp hacquire
  have hid : s.id = x := ObjectTable.id_of_get? (ObjectTable.semaphore?_eq_some.mp hs)
  refine callSettles_empty (o := .semaphore { s with count := s.count - need }) hid ?_ (List.map_eq_nil_iff.mpr hempty)
  rw [hkernel]
  exact .of_objects rfl rfl rfl rfl

/-- A wait gets its units past an empty queue only, and has the caller queued else. -/
theorem callSettles_waitSemaphore : k.CallSettles x (k.perform (.waitSemaphore x need timeoutAddress callbacks)) := by
  show k.CallSettles x ((k.waitSemaphore x need timeoutAddress callbacks).map .outcome)
  unfold waitSemaphore
  split
  · exact callSettles_refuse (Quiet.refl k) _
  · next s hs =>
    have hget := ObjectTable.semaphore?_eq_some.mp hs
    have hid : s.id = x := ObjectTable.id_of_get? hget
    split
    · exact callSettles_refuse (Quiet.refl k) _
    · split
      · next hacquire => exact callSettles_acquire hs hacquire rfl
      · next hacquire => exact callSettles_block hget (fun _ => hid) fun _ _ => Object.onlyWaitersChange_enqueue hacquire

/-- A poll gets its units past an empty queue only, and is refused else. -/
theorem callSettles_pollSemaphore : k.CallSettles x (k.perform (.pollSemaphore x need)) := by
  show k.CallSettles x ((k.pollSemaphore x need).map fun _ => .done)
  unfold pollSemaphore
  split
  · exact callSettles_refuse (Quiet.refl k) _
  · next s hs =>
    split
    · exact callSettles_refuse (Quiet.refl k) _
    · split
      · next hacquire => exact callSettles_acquire hs hacquire rfl
      · exact callSettles_refuse (Quiet.refl k) _

/-- A cancellation empties the queue, even if it cannot report how many were in it. -/
theorem callSettles_cancelSemaphore : k.CallSettles x (k.perform (.cancelSemaphore x count waitingAddress)) := by
  show k.CallSettles x ((k.cancelSemaphore x count waitingAddress).map fun _ => .done)
  unfold cancelSemaphore
  split
  · exact callSettles_refuse (Quiet.refl k) _
  · next s hs =>
    have hid : s.id = x := ObjectTable.id_of_get? (ObjectTable.semaphore?_eq_some.mp hs)
    split
    · exact callSettles_refuse (Quiet.refl k) _
    · refine callSettles_empty (o := .semaphore (s.reset count)) hid ?_ rfl
      rw [Reply.kernel_map]
      refine OnlyThreads.andThen (Quiet.withMemory _ _).onlyThreads fun _ k₂ => ?_
      exact onlyThreads_wakeAll k₂ _ _

/-- A call that settles the pipe. -/
theorem callSettles_settle {k₁ : Kernel} {p : MessagePipe} (hid : p.id = x)
    (hcarried : reply.isCarriedOut = true) (hkernel : reply.kernel = k₁.settle p) : k.CallSettles x reply := by
  intro o' h _
  obtain ⟨off, hserves, hidle, -⟩ := Moves.settleFor_settles (A := fun _ => True) (k := k₁) (fun _ _ => trivial) p
    (p.senders.length + p.receivers.length)
  have hpid : (k₁.settleFor p (p.senders.length + p.receivers.length)).2.id = x := by
    rw [hserves.frame]
    exact hid
  rw [hkernel, show (k₁.settle p).objects.get? x = _ from (ObjectTable.get?_put ..).trans (if_pos hpid),
    Option.some.injEq] at h
  rw [← h]
  exact .served hcarried (Object.settled_of_idle (hidle (Nat.le_refl _)))

/-- A send that goes through settles the pipe. -/
theorem callSettles_trySendPipe (f : Unit → Answer) (hf : (f ()).isFinal = true) :
    k.CallSettles x ((k.trySendPipe x r).map f) := by
  obtain ⟨k', e, hquiet, -, h⟩ | ⟨p, memory, bytes, hid, -, -, h⟩ := trySendPipe_cases k x r <;> rw [h]
  · exact callSettles_refuse hquiet f
  · exact callSettles_settle (p := p.push bytes) hid hf rfl

/-- A receive that goes through settles the pipe. -/
theorem callSettles_tryReceivePipe (f : Unit → Answer) (hf : (f ()).isFinal = true) :
    k.CallSettles x ((k.tryReceivePipe x r).map f) := by
  obtain ⟨k', e, hquiet, -, h⟩ | ⟨p, memory, amount, hid, -, h⟩ := tryReceivePipe_cases k x r <;> rw [h]
  · exact callSettles_refuse hquiet f
  · exact callSettles_settle (p := p.drop amount) hid hf rfl

/-- A send that does not go through at once has the caller queued. -/
theorem callSettles_sendPipe : k.CallSettles x (k.perform (.sendPipe x r timeoutAddress callbacks)) := by
  show k.CallSettles x ((k.sendPipe x r timeoutAddress callbacks).map .outcome)
  unfold sendPipe
  split
  · next k' hfull =>
    obtain ⟨rfl, p, hp, hs⟩ := trySendPipe_full hfull
    obtain ⟨rfl, hget, -⟩ := admitPipeRequest_eq_ok hp
    unfold blockOnPipe
    rw [ObjectTable.messagePipe?_eq_some.mpr hget]
    exact callSettles_block hget (fun _ => rfl) fun _ _ => Object.onlyWaitersChange_enqueueSender hs
  · rw [Reply.map_map]
    exact callSettles_trySendPipe _ rfl

/-- A receive that does not go through at once has the caller queued. -/
theorem callSettles_receivePipe : k.CallSettles x (k.perform (.receivePipe x r timeoutAddress callbacks)) := by
  show k.CallSettles x ((k.receivePipe x r timeoutAddress callbacks).map .outcome)
  unfold receivePipe
  split
  · next k' hempty =>
    obtain ⟨rfl, p, hp, hr⟩ := tryReceivePipe_empty hempty
    obtain ⟨rfl, hget, -⟩ := admitPipeRequest_eq_ok hp
    unfold blockOnPipe
    rw [ObjectTable.messagePipe?_eq_some.mpr hget]
    exact callSettles_block hget (fun _ => rfl) fun _ _ => Object.onlyWaitersChange_enqueueReceiver hr
  · rw [Reply.map_map]
    exact callSettles_tryReceivePipe _ rfl

/-- A cancellation empties both queues, even if it cannot report how many were in them. -/
theorem callSettles_cancelPipe : k.CallSettles x (k.perform (.cancelPipe x sendersAddress receiversAddress)) := by
  show k.CallSettles x ((k.cancelPipe x sendersAddress receiversAddress).map fun _ => .done)
  unfold cancelPipe
  split
  · exact callSettles_refuse (Quiet.refl k) _
  · next p hp =>
    have hid : p.id = x := ObjectTable.id_of_get? (ObjectTable.messagePipe?_eq_some.mp hp)
    refine callSettles_empty (o := .messagePipe p.reset) hid ?_ rfl
    rw [Reply.kernel_map]
    refine OnlyThreads.andThen (Quiet.withMemory _ _).onlyThreads fun _ k₂ => ?_
    refine OnlyThreads.andThen (Quiet.withMemory k₂ _).onlyThreads fun _ k₃ => ?_
    exact onlyThreads_wakeAll k₃ _ _

/-- **Calls on a semaphore or a pipe serve all they can, or are not carried out.** -/
theorem callSettles_perform {kind : ObjectKind} (hcall : call.object? = some (kind, x))
    (hk : kind = .semaphore ∨ kind = .messagePipe) : k.CallSettles x (k.perform call) := by
  rcases hk with rfl | rfl
  · cases call with
    | signalSemaphore y amount =>
      cases hcall
      exact callSettles_signalSemaphore
    | waitSemaphore y need timeoutAddress callbacks =>
      cases hcall
      exact callSettles_waitSemaphore
    | pollSemaphore y need =>
      cases hcall
      exact callSettles_pollSemaphore
    | cancelSemaphore y count waitingAddress =>
      cases hcall
      exact callSettles_cancelSemaphore
    | _ => cases hcall
  · cases call with
    | sendPipe y r timeoutAddress callbacks =>
      cases hcall
      exact callSettles_sendPipe
    | trySendPipe y r =>
      cases hcall
      exact callSettles_trySendPipe (fun _ => .done) rfl
    | receivePipe y r timeoutAddress callbacks =>
      cases hcall
      exact callSettles_receivePipe
    | tryReceivePipe y r =>
      cases hcall
      exact callSettles_tryReceivePipe (fun _ => .done) rfl
    | cancelPipe y sendersAddress receiversAddress =>
      cases hcall
      exact callSettles_cancelPipe
    | _ => cases hcall

/-! ### Runs -/

/-- Whether an operation is a call on an object that is carried out: neither refused, nor left waiting. -/
def completes (k : Kernel) (on : ObjectKind × ObjectId) : Operation → Bool
  | .syscall call => call.object? = some on && (k.perform call).isCarriedOut
  | _ => false

/-- A queue of the object of an id, if it is served from the front. -/
def served (k : Kernel) (x : ObjectId) (l : Line) : List (ThreadId × Demand) :=
  ((k.objects.get? x).map (·.served l)).getD []

/-- Who has been turned away in a queue of an object and waits since, after one more operation: whom a call on the object
that is carried out leaves at the front, whoever comes to the queue when it is empty, and otherwise the one before. -/
def turnedAwayAfter (k : Kernel) (x : ObjectId) (l : Line) (before : Option (ThreadId × Demand)) (op : Operation) :
    Option (ThreadId × Demand) :=
  let queue := (k.after op).served x l
  if k.completes (l.kind, x) op ∨ k.served x l = [] then queue.head? else before.filter (· ∈ queue)

/-- Who has been turned away in a queue of an object and waits since, after further operations. -/
def turnedAway (k : Kernel) (x : ObjectId) (l : Line) (before : Option (ThreadId × Demand)) :
    List Operation → Option (ThreadId × Demand)
  | [] => before
  | op :: rest => (k.after op).turnedAway x l (k.turnedAwayAfter x l before op) rest

/-- The object of an id cannot serve what was turned away. -/
def CannotMeet (k : Kernel) (x : ObjectId) (away : Option (ThreadId × Demand)) : Prop :=
  ∀ e ∈ away, ∀ o, k.objects.get? x = some o → o.meets e.2 = false

/-- Operations on other objects carry out nothing on this one. -/
theorem not_completes_of_object? (h : op.object? ≠ some on) : k.completes on op = false := by
  unfold completes
  split
  · next call => rw [decide_eq_false (show call.object? ≠ some on from h), Bool.false_and]
  · rfl

/-- A call that has its caller wait is not carried out yet. -/
theorem not_completes_of_result
    (h : ∀ a, (k.perform call).result = .ok a → a.isFinal = false) : k.completes on (.syscall call) = false := by
  unfold completes Reply.isCarriedOut
  dsimp only
  split
  · next a ha => rw [h a ha, Bool.and_false]
  · rw [Bool.and_false]

/-- A call on an object completes if it is carried out. -/
theorem completes_eq (h : call.object? = some on) : k.completes on (.syscall call) = (k.perform call).isCarriedOut := by
  unfold completes
  dsimp only
  rw [decide_eq_true h, Bool.true_and]

/-- **What an operation does to the queues of a semaphore or a pipe.** -/
theorem queuesAfter (hn : k.started.Nodup) (h : (k.after op).objects.get? x = some o')
    (hk : o'.kind = .semaphore ∨ o'.kind = .messagePipe) : k.QueuesAfter x (k.completes (o'.kind, x) op) o' := by
  by_cases hop : op.object? = some (o'.kind, x)
  · cases op with
    | syscall call =>
      have hthread : o'.kind ≠ .thread := by rcases hk with hk | hk <;> rw [hk] <;> nofun
      rw [completes_eq hop]
      exact callSettles_perform hop hk o' h hthread
    | _ => cases hop
  · rw [not_completes_of_object? hop]
    exact queuesAfter_other hn h hk hop

/-- The queue of a registered object. -/
theorem served_eq (h : k.objects.get? x = some o) (l : Line) : k.served x l = o.served l := by
  unfold served
  rw [h]
  rfl

/-- Only who is queued is turned away. -/
theorem mem_served_of_turnedAwayAfter {e : ThreadId × Demand}
    (h : e ∈ k.turnedAwayAfter x l before op) : e ∈ (k.after op).served x l := by
  unfold turnedAwayAfter at h
  dsimp only at h
  split at h
  · exact List.mem_of_mem_head? h
  · exact of_decide_eq_true (Option.filter_eq_some_iff.mp h).2

/-- **Whoever is turned away cannot be served**, and stays so until the next call on the object that is carried out. -/
theorem CannotMeet.after (h : k.CannotMeet x before) (hn : k.started.Nodup)
    (op : Operation) (l : Line) : (k.after op).CannotMeet x (k.turnedAwayAfter x l before op) := by
  intro e he o' ho'
  have hqueued := mem_served_of_turnedAwayAfter he
  rw [served_eq ho'] at hqueued
  obtain ⟨hkind, hk⟩ := Object.kind_of_served_ne (List.ne_nil_of_mem hqueued)
  unfold turnedAwayAfter at he
  dsimp only at he
  rw [served_eq ho', ← hkind] at he
  cases queuesAfter hn ho' hk with
  | empty hempty =>
    rw [hempty l] at hqueued
    cases hqueued
  | served hcarried hsettled =>
    rw [if_pos (Or.inl hcarried)] at he
    exact hsettled l e he
  | @waiters o hcarried ho hchange =>
    by_cases hempty : o.served l = []
    · rw [if_pos (Or.inr ((served_eq ho l).trans hempty))] at he
      exact hchange.settled l hempty e he
    · rw [if_neg (by rw [hcarried, served_eq ho]; simpa using hempty)] at he
      rw [hchange.meets_eq]
      exact h e (Option.filter_eq_some_iff.mp he).1 o ho

/-- A run keeps what it turned away one that cannot be met. -/
theorem CannotMeet.run (h : k.CannotMeet x before) (hn : k.started.Nodup)
    (l : Line) (operations : List Operation) : (k.run operations).CannotMeet x (k.turnedAway x l before operations) := by
  induction operations generalizing k before with
  | nil => exact h
  | cons op rest ih => exact ih (h.after hn op l) (nodup_started_after op hn)

/-- **No request sleeps at the front of a queue that could be served**, in any reachable state, as long as the one at the
front is the one that was turned away there: whom the last call on the object that was carried out has left at the front,
or who has come to the queue since, when it was empty. -/
theorem settled_run (config : KernelConfig) (memory : Memory) (operations : List Operation) {x : ObjectId} {o : Object}
    {l : Line} (ho : ((Kernel.new config memory).run operations).objects.get? x = some o)
    (hfront : (o.served l).head? = (Kernel.new config memory).turnedAway x l none operations) : o.Settled l := by
  have hstart : (Kernel.new config memory).CannotMeet x none := nofun
  intro e he
  exact hstart.run (nodup_started_new config memory) l operations e (hfront ▸ he) o ho

/-- One unit is left. A thread waits for two of them until its timeout runs out, and another for one behind it. -/
def leftFront : List Operation :=
  [.syscall (.createThread "large" 0x08900000 32 0x1000 0), .syscall (.createThread "small" 0x08900000 33 0x1000 0),
    .syscall (.startThread 1 0 0), .syscall (.startThread 2 0 0), .syscall (.createSemaphore "units" 0 1 2),
    .guestWrite 0x08800000 [100, 0, 0, 0], .dispatch, .syscall (.waitSemaphore 3 2 0x08800000 false), .dispatch,
    .syscall (.waitSemaphore 3 1 0 false), .advanceClock 100]

/-- One unit is left. A thread waits for two of them, and one of a better priority comes and waits for one. -/
def overtakenFront : List Operation :=
  [.syscall (.createThread "large" 0x08900000 33 0x1000 0), .syscall (.createThread "small" 0x08900000 32 0x1000 0),
    .syscall (.startThread 1 0 0), .syscall (.createSemaphore "units" attributePriority 1 2), .dispatch,
    .syscall (.waitSemaphore 3 2 0 false), .syscall (.startThread 2 0 0), .dispatch,
    .syscall (.waitSemaphore 3 1 0 false)]

/-- Half of a pipe is full. A thread waits to receive more than that until its timeout runs out, another to receive less
behind it, and a third to send more than there is room for. -/
def leftReceiver : List Operation :=
  [.syscall (.createThread "large" 0x08900000 32 0x1000 0), .syscall (.createThread "small" 0x08900000 33 0x1000 0),
    .syscall (.createThread "sender" 0x08900000 34 0x1000 0), .syscall (.startThread 1 0 0), .syscall (.startThread 2 0 0),
    .syscall (.startThread 3 0 0), .syscall (.createPipe "bytes" 2 0 8), .guestWrite 0x08800000 [100, 0, 0, 0], .dispatch,
    .syscall (.trySendPipe 4 ⟨0x08800010, 4, 0, 0⟩), .syscall (.receivePipe 4 ⟨0x08800020, 6, 0, 0⟩ 0x08800000 false),
    .dispatch, .syscall (.receivePipe 4 ⟨0x08800030, 2, 0, 0⟩ 0 false), .dispatch,
    .syscall (.sendPipe 4 ⟨0x08800040, 6, 0, 0⟩ 0 false), .advanceClock 100]

/-- The front of one queue of the pipe has passed to a receiver that was not turned away, and the sender at the front of
the other still cannot be served. -/
theorem settled_run_leftReceiver : ∃ o, ((Kernel.new {} {}).run leftReceiver).objects.get? 4 = some o ∧
    o.served .receivers = [(2, .receive ⟨0x08800030, 2, 0, 0⟩)] ∧
    (Kernel.new {} {}).turnedAway 4 .receivers none leftReceiver = none ∧
    o.served .senders = [(3, .send ⟨0x08800040, 6, 0, 0⟩)] ∧ o.Settled .senders := by
  have hsome : (((Kernel.new {} {}).run leftReceiver).objects.get? 4).isSome := by decide +kernel
  obtain ⟨o, ho⟩ := Option.isSome_iff_exists.mp hsome
  have hreceivers : ((Kernel.new {} {}).run leftReceiver).served 4 .receivers =
      [(2, .receive ⟨0x08800030, 2, 0, 0⟩)] := by decide +kernel
  have hsenders : ((Kernel.new {} {}).run leftReceiver).served 4 .senders = [(3, .send ⟨0x08800040, 6, 0, 0⟩)] := by
    decide +kernel
  have haway : (Kernel.new {} {}).turnedAway 4 .senders none leftReceiver = some (3, .send ⟨0x08800040, 6, 0, 0⟩) := by
    decide +kernel
  rw [served_eq ho] at hreceivers hsenders
  exact ⟨o, ho, hreceivers, by decide +kernel, hsenders, settled_run {} {} leftReceiver ho (by rw [hsenders, haway]; rfl)⟩

/-- An object that fails the computed check is not settled. -/
theorem exists_not_settled (h : ((k.objects.get? x).any fun o => !decide (o.Settled l)) = true) :
    ∃ o, k.objects.get? x = some o ∧ ¬ o.Settled l := by
  obtain ⟨o, ho, hnot⟩ := (Option.any_eq_true _ _).mp h
  exact ⟨o, ho, by simpa using hnot⟩

/-- Where a front has passed, a request may sleep that could be served: one whose predecessor has left a semaphore, one
that has come first by its priority, and one whose predecessor has left a pipe. -/
theorem not_settled_passedFronts :
    (∃ o, ((Kernel.new {} {}).run leftFront).objects.get? 3 = some o ∧ ¬ o.Settled .semaphore) ∧
      (∃ o, ((Kernel.new {} {}).run overtakenFront).objects.get? 3 = some o ∧ ¬ o.Settled .semaphore) ∧
      ∃ o, ((Kernel.new {} {}).run leftReceiver).objects.get? 4 = some o ∧ ¬ o.Settled .receivers :=
  ⟨exists_not_settled (by decide +kernel), exists_not_settled (by decide +kernel), exists_not_settled (by decide +kernel)⟩

end Kernel
end GuestKernel
