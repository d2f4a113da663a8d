/-
# Queues by priority

A waiter brings the priority of its thread into the queue of an object, and the copy stays as it is: a call that changes
the priority of a waiting thread leaves every queue alone (`line_after_of_ranks`). A queue by priority is therefore
ordered by the priorities that the threads had when they came. It follows the priorities they have now as far as nobody
has been given another one since (`Unranked`).

Source: specification, 4.4 and 4.6.
-/

import GuestKernel.Proofs.ServiceOrder
import GuestKernel.Proofs.ThreadRecords

namespace GuestKernel
namespace Kernel

variable {k : Kernel} {o : Operation} {operations : List Operation} {x : ObjectId} {l : Line} {w : Waiter Unit} {n : Nat}
  {config : KernelConfig} {memory : Memory}

/-! ### Changing a priority -/

theorem onlyThreads_changePriority (k : Kernel) (id : ThreadId) (priority : UInt32) :
    OnlyThreads k (k.changePriority id priority).kernel := by
  have hsame : OnlyThreads k k := .of_objects rfl rfl rfl rfl
  unfold changePriority
  split
  · exact hsame
  split
  · exact hsame
  next t ht =>
  split
  · exact hsame
  · exact (rearranges_reprioritise (thread?_id ht) priority).onlyThreads

theorem onlyThreads_restorePriority (k : Kernel) (id : ThreadId) (priority : UInt32) :
    OnlyThreads k (k.restorePriority id priority).kernel := by
  unfold restorePriority
  split
  · split
    · exact .of_objects rfl rfl rfl rfl
    · exact onlyThreads_changePriority ..
  · exact onlyThreads_changePriority ..

/-- **A call that changes a priority leaves every queue alone.** -/
theorem line_after_of_ranks {id : ThreadId} (ho : o.ranks? k = some id) (x : ObjectId) (l : Line) :
    (k.after o).line x l = k.line x l := by
  cases o with
  | changePriority id priority => exact ((onlyThreads_changePriority k id priority).line x l).1
  | syscall call =>
    cases call with
    | changeThreadPriority y priority =>
      show (k.onThread y fun k id => k.restorePriority id priority).kernel.line x l = k.line x l
      unfold onThread
      split
      · exact ((onlyThreads_restorePriority ..).line x l).1
      · rfl
    | _ => cases ho
  | _ => cases ho

/-! ### Priorities of waiters -/

/-- No call has changed the priority of the waiter's thread since it came into the queue. -/
def Unranked (k : Kernel) (operations : List Operation) (x : ObjectId) (l : Line) (w : Waiter Unit) : Prop :=
  ∃ n, k.Arrives operations x l w n ∧ ∀ first o rest, operations = first ++ o :: rest → n ≤ first.length →
    o.ranks? (k.run first) ≠ some w.thread

/-- The priority of the thread of an id. -/
def priorityOf? (k : Kernel) (id : ThreadId) : Option UInt32 := (k.thread? id).map (·.priority)

/-- **A waiter has the priority of its thread** from when it came, until a call changes the thread's. -/
theorem Arrives.priorityOf? (h : (Kernel.new config memory).Arrives operations x l w n)
    (hids : (Kernel.new config memory).handedOut operations < 2 ^ 32 - 1)
    (hranks : ∀ first o rest, operations = first ++ o :: rest → n ≤ first.length →
      o.ranks? ((Kernel.new config memory).run first) ≠ some w.thread) :
    ((Kernel.new config memory).run operations).priorityOf? w.thread = some w.priority := by
  have hprefix : ∀ m, n ≤ m → m ≤ operations.length →
      ((Kernel.new config memory).run (operations.take m)).priorityOf? w.thread = some w.priority := by
    intro m hm
    induction m, hm using Nat.le_induction with
    | base =>
      intro _
      obtain ⟨t, ht, hpriority⟩ := h.priority
      rw [Kernel.priorityOf?, ht, Option.map_some, hpriority]
    | succ m hm ih =>
      intro hlt
      obtain ⟨t, ht, hpriority⟩ := Option.map_eq_some_iff.mp (ih (Nat.le_of_lt hlt))
      have hsplit : operations = operations.take m ++ operations.get ⟨m, hlt⟩ :: operations.drop (m + 1) := by
        rw [List.get_eq_getElem, List.getElem_cons_drop, List.take_append_drop]
      have hids' : ∀ n, (Kernel.new config memory).handedOut (operations.take n) < 2 ^ 32 - 1 := by
        intro n
        have hle := handedOut_le_append (Kernel.new config memory) (operations.take n) (operations.drop n)
        rw [List.take_append_drop] at hle
        exact Nat.lt_of_le_of_lt hle hids
      have hstep : operations.take (m + 1) = operations.take m ++ [operations.get ⟨m, hlt⟩] := by
        rw [List.get_eq_getElem, List.take_append_getElem]
      have hw := h.since (m + 1) (Nat.lt_succ_of_le hm) hlt
      obtain ⟨t', -, ht', -⟩ := waits_of_mem_line (placed_run config memory _ (hids' (m + 1))).2 hw
      have hrank := hranks _ _ _ hsplit (by rw [List.length_take]; omega)
      rw [hstep, run_concat] at ht' ⊢
      have heq := priority_after (placed_run config memory _ (hids' m)).1 (nodup_started_run config memory _) hrank ht ht'
      rw [Kernel.priorityOf?, ht', Option.map_some, heq, hpriority]
  have hall := hprefix operations.length (Nat.le_of_lt h.lt) (Nat.le_refl _)
  rwa [List.take_length] at hall

/-- A waiter whose priority nobody changes has the one that it was queued with. -/
theorem Unranked.priorityOf? (h : (Kernel.new config memory).Unranked operations x l w)
    (hids : (Kernel.new config memory).handedOut operations < 2 ^ 32 - 1) :
    ((Kernel.new config memory).run operations).priorityOf? w.thread = some w.priority := by
  obtain ⟨n, harrives, hranks⟩ := h
  exact harrives.priorityOf? hids hranks

/-! ### The order -/

/-- A queue that is ordered by the priorities its waiters came with, and by those their threads have now as far as these
are the same. -/
structure PriorityOrder (k : Kernel) (operations : List Operation) (x : ObjectId) (l : Line) : Prop where
  /-- Each waiter came on the processor, and has in the queue the priority its thread had then. -/
  arrives : ∀ w ∈ (k.run operations).line x l, ∃ n, k.Arrives operations x l w n
  ascending : ((k.run operations).line x l).Pairwise (·.priority ≤ ·.priority)
  current : ((k.run operations).line x l).Pairwise fun v w =>
    k.Unranked operations x l v → k.Unranked operations x l w → ∃ p q,
      (k.run operations).priorityOf? v.thread = some p ∧ (k.run operations).priorityOf? w.thread = some q ∧ p ≤ q
  /-- A call that changes a priority moves nobody. -/
  ranked : ∀ o id, o.ranks? (k.run operations) = some id →
    ((k.run operations).after o).line x l = (k.run operations).line x l

/-- **Queues by priority.** In every reachable state the queues of an object that asks for it are ordered by the
priorities with which the waiters came. Two waiters whose threads still have those stand in the order of the priorities
that their threads have now. -/
theorem priorityOrder_run (config : KernelConfig) (memory : Memory) (operations : List Operation)
    (hids : (Kernel.new config memory).handedOut operations < 2 ^ 32 - 1) (x : ObjectId) (l : Line)
    (hpriority : ((Kernel.new config memory).run operations).attributes x &&& attributePriority ≠ 0) :
    (Kernel.new config memory).PriorityOrder operations x l := by
  obtain ⟨arrival, harrives, horder⟩ := inOrder_run config memory operations hids x l
  have hascending : (((Kernel.new config memory).run operations).line x l).Pairwise (·.priority ≤ ·.priority) := by
    refine horder.imp fun {v w} hvw => ?_
    rw [Waiter.Before, if_neg hpriority] at hvw
    rcases hvw with hlt | ⟨heq, -⟩
    · exact UInt32.le_of_lt hlt
    · exact UInt32.le_of_eq heq
  refine ⟨fun w hw => ⟨_, harrives w hw⟩, hascending, hascending.imp fun hle hv hw => ?_, fun o id ho => ?_⟩
  · exact ⟨_, _, hv.priorityOf? hids, hw.priorityOf? hids, hle⟩
  · exact line_after_of_ranks ho x l

/-- Three threads of the priorities 20, 24 and 30 wait on a semaphore with a queue by priority, the last one first, and
the second one is given the priority 10. -/
def promotedWaiter : List Operation :=
  [.syscall (.createThread "first" 0x08900000 20 0x1000 0), .syscall (.createThread "second" 0x08900000 24 0x1000 0),
    .syscall (.createThread "third" 0x08900000 30 0x1000 0), .syscall (.createSemaphore "units" 0x100 0 4),
    .syscall (.startThread 3 0 0), .dispatch, .syscall (.waitSemaphore 4 1 0 false), .syscall (.startThread 2 0 0),
    .dispatch, .syscall (.waitSemaphore 4 1 0 false), .syscall (.startThread 1 0 0), .dispatch,
    .syscall (.waitSemaphore 4 1 0 false), .changePriority 2 10]

/-- The first and the third waiter have kept their priorities and stand in the order of these. -/
theorem priorityOrder_run_promotedWaiter :
    (Kernel.new {} {}).handedOut promotedWaiter < 2 ^ 32 - 1 ∧
      ((Kernel.new {} {}).run promotedWaiter).attributes 4 &&& attributePriority ≠ 0 ∧
      ((Kernel.new {} {}).run promotedWaiter).line 4 .semaphore = [⟨1, 20, ()⟩, ⟨2, 24, ()⟩, ⟨3, 30, ()⟩] ∧
      (Kernel.new {} {}).PriorityOrder promotedWaiter 4 .semaphore ∧
      ∃ p q, ((Kernel.new {} {}).run promotedWaiter).priorityOf? 1 = some p ∧
        ((Kernel.new {} {}).run promotedWaiter).priorityOf? 3 = some q ∧ p ≤ q := by
  have hids : (Kernel.new {} {}).handedOut promotedWaiter < 2 ^ 32 - 1 := handedOut_lt (by decide)
  have hpriority : ((Kernel.new {} {}).run promotedWaiter).attributes 4 &&& attributePriority ≠ 0 := by decide +kernel
  have hline : ((Kernel.new {} {}).run promotedWaiter).line 4 .semaphore = [⟨1, 20, ()⟩, ⟨2, 24, ()⟩, ⟨3, 30, ()⟩] := by
    decide +kernel
  have horder := priorityOrder_run {} {} promotedWaiter hids 4 .semaphore hpriority
  have hranks : ∀ o ∈ promotedWaiter, ∀ k id, o.ranks? k = some id → id = 2 := by
    simp [promotedWaiter, Operation.ranks?, Syscall.ranks?]
  have hunranked : ∀ w ∈ ((Kernel.new {} {}).run promotedWaiter).line 4 .semaphore, w.thread ≠ 2 →
      (Kernel.new {} {}).Unranked promotedWaiter 4 .semaphore w := by
    intro w hw hne
    obtain ⟨n, harrives⟩ := horder.arrives w hw
    refine ⟨n, harrives, fun first o rest heq _ ho => hne (hranks o ?_ _ _ ho)⟩
    rw [heq]
    exact List.mem_append_right _ (List.mem_cons_self ..)
  have hcurrent := horder.current
  rw [hline] at hunranked hcurrent
  have hfirst := (List.pairwise_cons.mp hcurrent).1 ⟨3, 30, ()⟩ (by simp)
  exact ⟨hids, hpriority, hline, horder, hfirst (hunranked _ (by simp) (by decide)) (hunranked _ (by simp) (by decide))⟩

/-- **A waiter that is given a lower priority value stays behind others.** -/
theorem not_ascending_promotedWaiter :
    ((Kernel.new {} {}).run promotedWaiter).attributes 4 &&& attributePriority ≠ 0 ∧
      (((Kernel.new {} {}).run promotedWaiter).line 4 .semaphore).map
        (fun w => ((Kernel.new {} {}).run promotedWaiter).priorityOf? w.thread) = [some 20, some 10, some 30] := by
  decide +kernel

end Kernel
end GuestKernel
