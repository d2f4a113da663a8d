/-
# Whom a signal serves

A signal adds units to a semaphore and serves its queue from the front while units last. With a budget of the units that
the semaphore then has, the number of waiters served is the greatest one that the budget allows.

| after a signal that fits | is |
| --- | --- |
| the threads woken | those of the longest prefix of the queue whose requests the budget covers, each with 0 in `v0` |
| the queue | what stands behind that prefix |
| the count | the budget without the requests of that prefix |

A small request behind a large one is not in an affordable prefix, so it is not served, however small it is
(`signalServes_run_heldBack`).

Source: specification, 4.6.
-/

import GuestKernel.Proofs.Joins
import GuestKernel.Proofs.SemaphoreUnits
import GuestKernel.Proofs.Settled
import Mathlib.Order.Bounds.Basic

namespace GuestKernel

/-- A thread whose wait ends becomes ready, unless it is suspended. -/
theorem Thread.Sound.status_unpark {t : Thread} {w : Wait} (h : t.Sound) (hw : t.wait = some w) (result : Int32) :
    (t.unpark result).status = if t.status.suspended then .onlySuspended else .onlyReady := by
  show t.status.unpark = _
  rcases h.of_waiting (h.wait.mp (by rw [hw]; rfl)) with hs | hs <;> rw [hs] <;> rfl

namespace Semaphore

variable {count : Int32} {q : WaitQueue Int32}

/-- The numbers of waiters, counted from the front, whose requests a budget covers. -/
def affordable (budget : Int) (q : WaitQueue Int32) : Set Nat :=
  { i | i ≤ q.length ∧ units (q.take i) ≤ budget }

theorem units_nonneg (h : ∀ w ∈ q, 1 ≤ w.request) : 0 ≤ units q := by
  induction q with
  | nil => exact Int.le_refl 0
  | cons w rest ih =>
    have hhead := Int32.le_iff_toInt_le.mp (h w List.mem_cons_self)
    have hrest := ih fun w' hw' => h w' (List.mem_cons_of_mem _ hw')
    have hone : (1 : Int32).toInt = 1 := rfl
    rw [units]
    omega

/-- A queue asks for at least what its front asks for. -/
theorem le_units_of_head {w : Waiter Int32} (h : ∀ w ∈ q, 1 ≤ w.request) (hw : w ∈ q.head?) :
    w.request.toInt ≤ units q := by
  cases q with
  | nil => cases hw
  | cons w₀ rest =>
    rw [List.head?_cons, Option.mem_def, Option.some.injEq] at hw
    have hrest := units_nonneg fun w' hw' => h w' (List.mem_cons_of_mem _ hw')
    rw [units, hw]
    omega

/-- **The longest affordable prefix is the one behind which the next request is too large.** -/
theorem isGreatest_affordable {front rest : WaitQueue Int32} {budget : Int} (hasks : ∀ w ∈ rest, 1 ≤ w.request)
    (hfits : units front ≤ budget) (hstops : ∀ w ∈ rest.head?, budget < units front + w.request.toInt) :
    IsGreatest (affordable budget (front ++ rest)) front.length := by
  constructor
  · refine ⟨by simp, ?_⟩
    rwa [List.take_left]
  · rintro i ⟨hi, hbudget⟩
    by_contra hlong
    rw [Nat.not_le] at hlong
    obtain ⟨n, hn⟩ := Nat.exists_eq_add_of_le hlong
    -- A longer prefix has the next request in it.
    have htaken : (front ++ rest).take i = front ++ rest.take (n + 1) := by
      rw [List.take_append, List.take_of_length_le (by omega), show i - front.length = n + 1 by omega]
    rw [htaken, units_append] at hbudget
    cases rest with
    | nil =>
      rw [List.append_nil] at hi
      omega
    | cons w behind =>
      have hlarge := hstops w rfl
      have hmore : w.request.toInt ≤ units ((w :: behind).take (n + 1)) :=
        le_units_of_head (fun w' hw' => hasks w' (List.mem_of_mem_take hw')) rfl
      omega

/-- **Serving a queue serves its longest affordable prefix**, and pays for that prefix. -/
theorem serve_longest (hcount : 0 ≤ count) (hasks : ∀ w ∈ q, 1 ≤ w.request) :
    ∃ j, IsGreatest (affordable count.toInt q) j ∧ (serve count q).2.1 = q.drop j ∧
      (serve count q).2.2 = q.threads.take j ∧ (serve count q).1.toInt = count.toInt - units (q.take j) := by
  obtain ⟨front, hq, hserved⟩ := serve_front count q
  obtain ⟨-, hleft, -, hunits⟩ := serve_exact hcount hasks
  have hstops := serve_settles count q
  generalize hrest : (serve count q).2.1 = rest at hq hunits hstops
  subst hq
  rw [units_append] at hunits
  rw [Int32.le_iff_toInt_le, Int32.toInt_zero] at hleft
  have htake : (front ++ rest).take front.length = front := List.take_left
  have hthreads : (front ++ rest : WaitQueue Int32).threads.take front.length = front.threads := by
    rw [WaitQueue.threads, ← List.map_take, htake, WaitQueue.threads]
  refine ⟨front.length, ?_, List.drop_left.symm, by rw [hthreads, hserved], by rw [htake]; omega⟩
  refine isGreatest_affordable (fun w hw => hasks w (List.mem_append_right _ hw)) (by omega) fun w hw => ?_
  have hlarge := Int32.lt_iff_toInt_lt.mp (hstops w hw)
  omega

/-- **A release serves the longest prefix that the units cover**, counted with those that are added. -/
theorem Sound.release_longest {s : Semaphore} {amount : Int32} (h : s.Sound) (hamount : 0 ≤ amount)
    (hover : s.overflows amount = false) :
    ∃ j, ∃ count : Int32, IsGreatest (affordable (s.count.toInt + amount.toInt) s.waiters) j ∧
      count.toInt = s.count.toInt + amount.toInt - units (s.waiters.take j) ∧
      s.release amount = ({ s with count, waiters := s.waiters.drop j }, s.waiters.threads.take j) := by
  obtain ⟨hbudget, hnonneg, -⟩ := h.toInt_add hamount hover
  obtain ⟨j, hgreatest, hleft, hserved, hcount⟩ := serve_longest hnonneg h.pos_of_mem
  rw [hbudget] at hgreatest hcount
  refine ⟨j, _, hgreatest, hcount, ?_⟩
  rw [← hleft, ← hserved]
  rfl

end Semaphore

namespace Kernel

variable {k k₁ : Kernel} {L ids : List ThreadId} {x : ObjectId} {o : Object}

/-- The other objects stay as they are. -/
theorem OnlyThreads.get?_of_some (h : OnlyThreads k k₁) (ho : k.objects.get? x = some o) (hk : o.kind ≠ .thread) :
    k₁.objects.get? x = some o := by
  obtain heq | ⟨t, -, ht, -⟩ := h.objects x
  · exact heq.trans ho
  · rw [ho, Option.some.injEq] at ht
    exact absurd rfl (ht ▸ hk)

/-- **Waking threads of one queue** wakes each of them once, in the order given, and nobody else. -/
theorem wakeAll_queued (h : k.Placed L) (ho : k.objects.get? x = some o) (hids : ids.Sublist o.waiting)
    (hthreads : ∀ id, k₁.thread? id = k.thread? id) (hwakings : k₁.wakings = k.wakings) (result : Int32) :
    (k₁.wakeAll ids result).wakings = (ids.map (·, result)).reverse ++ k.wakings ∧
      ∀ id, (k₁.wakeAll ids result).thread? id =
        if id ∈ ids then (k.thread? id).map (·.unpark result) else k.thread? id := by
  have hwaits : ∀ id ∈ ids, ∃ t w, k.thread? id = some t ∧ t.wait = some w := fun id hid => by
    obtain ⟨t, w, ht, hw, -⟩ := h.waits ho (hids.subset hid)
    exact ⟨t, w, ht, hw⟩
  refine ⟨?_, fun id => ?_⟩
  · rw [wakings_wakeAll ((h.nodup_waiting ho).sublist hids) (fun id hid => ?_), hwakings]
    obtain ⟨t, w, ht, hw⟩ := hwaits id hid
    rw [waitOf?, hthreads, ht, Option.bind_some, hw]
    rfl
  · rw [thread?_wakeAll, hthreads]
    split
    · next hid =>
      obtain ⟨t, w, ht, hw⟩ := hwaits id hid
      rw [ht, Option.map_some, Option.map_some, Thread.woken_of_waiting hw]
    · rfl

/-- The reply to a signal, whether it fits or not. -/
theorem signalSemaphore_eq {s : Semaphore} {amount : Int32} (hs : k.objects.semaphore? x = some s)
    (hamount : 0 ≤ amount) :
    k.perform (.signalSemaphore x amount) =
      if s.overflows amount then k.refuse .semaphoreOverflow
      else ((k.put (.semaphore (s.release amount).1)).wakeAll (s.release amount).2 0).done .done := by
  show (k.signalSemaphore x amount).map (fun _ => Answer.done) = _
  unfold signalSemaphore
  rw [hs]
  dsimp only
  rw [if_neg (Int32.not_lt.mpr hamount)]
  split <;> rfl

/-- **A signal serves the longest affordable prefix.** In every reachable state, a signal that fits releases as many
waiters as the units cover, counted from the front. Each of them is woken once with the result 0, in queue order, finds it
in `v0` of its context, and is ready then, or suspended if it was; all other threads are as before. The rest of the queue
stays, and the units that the prefix asked for are spent. A signal that does not fit changes nothing. -/
theorem signalServes_run (config : KernelConfig) (memory : Memory) (operations : List Operation) (x : ObjectId)
    (s : Semaphore) (amount : Int32) (hids : (Kernel.new config memory).handedOut operations < 2 ^ 32 - 1)
    (hs : ((Kernel.new config memory).run operations).objects.semaphore? x = some s) (hamount : 0 ≤ amount) :
    let k := (Kernel.new config memory).run operations
    let reply := k.perform (.signalSemaphore x amount)
    let budget := s.count.toInt + amount.toInt
    (budget ≤ s.maxCount.toInt → ∃ j,
      IsGreatest { i | i ≤ s.waiters.length ∧ Semaphore.units (s.waiters.take i) ≤ budget } j ∧
      reply.result = .ok .done ∧
      (∃ count : Int32, count.toInt = budget - Semaphore.units (s.waiters.take j) ∧
        reply.kernel.objects.semaphore? x = some { s with count, waiters := s.waiters.drop j }) ∧
      (s.waiters.threads.take j).Nodup ∧
      reply.kernel.wakings = ((s.waiters.threads.take j).map (·, 0)).reverse ++ k.wakings ∧
      (∀ id, reply.kernel.thread? id =
        if id ∈ s.waiters.threads.take j then (k.thread? id).map (·.unpark 0) else k.thread? id) ∧
      ∀ id ∈ s.waiters.threads.take j, ∃ t c, k.thread? id = some t ∧ t.status.waiting = true ∧
        (t.unpark 0).status = (if t.status.suspended then .onlySuspended else .onlyReady) ∧
        t.context = some c ∧ reply.kernel.contexts.register c Register.v0 = 0) ∧
    (s.maxCount.toInt < budget → reply.result = .error .semaphoreOverflow ∧ reply.kernel = k) := by
  intro k reply budget
  have hreply : reply = _ := signalSemaphore_eq hs hamount
  refine ⟨fun hfits => ?_, fun hlarge => ?_⟩
  · obtain ⟨⟨hcoherent, -⟩, hplaced⟩ := placed_run config memory operations hids
    have hget := ObjectTable.semaphore?_eq_some.mp hs
    have hid : s.id = x := ObjectTable.id_of_get? hget
    have hregistered : k.objects.get? (Object.semaphore s).id = some (.semaphore s) := by
      rw [show (Object.semaphore s).id = x from hid]
      exact hget
    have hsound : s.Sound := semaphoreSound_run config memory operations hs
    have hover : s.overflows amount = false := decide_eq_false (Int.not_lt.mpr hfits)
    rw [if_neg (by rw [hover]; exact Bool.false_ne_true)] at hreply
    obtain ⟨j, count, hgreatest, hcount, hrelease⟩ := hsound.release_longest hamount hover
    rw [hrelease] at hreply
    have htaken : (s.waiters.threads.take j).Sublist (Object.semaphore s).waiting := List.take_sublist ..
    have hsame := thread?_put_of_kind_ne (.semaphore { s with count, waiters := s.waiters.drop j }) hregistered nofun
      rfl rfl
    obtain ⟨hwakings, hthreads⟩ := wakeAll_queued hplaced hget htaken hsame rfl 0
    rw [hreply]
    refine ⟨j, hgreatest, rfl, ⟨count, hcount, ?_⟩, (hplaced.nodup_waiting hget).sublist htaken, hwakings, hthreads,
      fun id hmem => ?_⟩
    · refine ObjectTable.semaphore?_eq_some.mpr ((onlyThreads_wakeAll ..).get?_of_some ?_ nofun)
      exact (ObjectTable.get?_put ..).trans (if_pos hid)
    · obtain ⟨t, w, ht, hw, -⟩ := hplaced.waits hget (htaken.subset hmem)
      have hsoundThread := hcoherent.threads id t ht
      obtain ⟨c, hc⟩ := hsoundThread.context_of_wait (by rw [hw]; rfl)
      exact ⟨t, c, ht, hsoundThread.wait.mp (by rw [hw]; rfl), hsoundThread.status_unpark hw 0, hc,
        register_wakeAll_of_mem hmem ((hsame id).trans ht) hw hc⟩
  · have hover : s.overflows amount = true := decide_eq_true hlarge
    rw [if_pos hover] at hreply
    rw [hreply]
    exact ⟨rfl, rfl⟩

/-- Three threads ask for 3, 4 and 1 of the units of a semaphore that has one, and the first of them is suspended. -/
def queuedForUnits : List Operation :=
  oneUnit ++ [.syscall (.waitSemaphore 4 3 0 false), .dispatch, .syscall (.waitSemaphore 4 4 0 false), .dispatch,
    .syscall (.waitSemaphore 4 1 0 false), .suspendThread 1]

/-- With 3 units more, the first thread is served. One unit is left, and the third thread cannot have it, since the second
stands before it. -/
theorem signalServes_run_heldBack : ∃ s,
    (Kernel.new {} {}).handedOut queuedForUnits < 2 ^ 32 - 1 ∧
      ((Kernel.new {} {}).run queuedForUnits).objects.semaphore? 4 = some s ∧ (0 : Int32) ≤ 3 ∧
      s.count.toInt + (3 : Int32).toInt ≤ s.maxCount.toInt ∧ s.waiters = [⟨1, 32, 3⟩, ⟨2, 33, 4⟩, ⟨3, 34, 1⟩] ∧
      IsGreatest { i | i ≤ s.waiters.length ∧ Semaphore.units (s.waiters.take i) ≤ s.count.toInt + (3 : Int32).toInt } 1 ∧
      (((Kernel.new {} {}).run queuedForUnits).perform (.signalSemaphore 4 3)).kernel.wakings =
        (1, 0) :: ((Kernel.new {} {}).run queuedForUnits).wakings ∧
      s.maxCount.toInt < s.count.toInt + (10 : Int32).toInt ∧
      (((Kernel.new {} {}).run queuedForUnits).perform (.signalSemaphore 4 10)).kernel =
        (Kernel.new {} {}).run queuedForUnits := by
  have hids : (Kernel.new {} {}).handedOut queuedForUnits < 2 ^ 32 - 1 := handedOut_lt (by decide)
  let s : Semaphore := ⟨4, "slots", 0, 1, 10, 1, [⟨1, 32, 3⟩, ⟨2, 33, 4⟩, ⟨3, 34, 1⟩]⟩
  have hs : ((Kernel.new {} {}).run queuedForUnits).objects.semaphore? 4 = some s := by decide +kernel
  have hlongest : ∀ i ≤ s.waiters.length,
      Semaphore.units (s.waiters.take i) ≤ s.count.toInt + (3 : Int32).toInt → i ≤ 1 := by decide
  have hfits : s.count.toInt + (3 : Int32).toInt ≤ s.maxCount.toInt := by decide
  have hlarge : s.maxCount.toInt < s.count.toInt + (10 : Int32).toInt := by decide
  obtain ⟨j, hj, -, -, -, hwakings, -⟩ :=
    (signalServes_run {} {} queuedForUnits 4 s 3 hids hs (by decide)).1 hfits
  have hone : IsGreatest { i | i ≤ s.waiters.length ∧
      Semaphore.units (s.waiters.take i) ≤ s.count.toInt + (3 : Int32).toInt } 1 :=
    ⟨⟨by decide, by decide⟩, fun i hi => hlongest i hi.1 hi.2⟩
  rw [hj.unique hone] at hwakings
  exact ⟨s, hids, hs, by decide, hfits, rfl, hone, hwakings, hlarge,
    ((signalServes_run {} {} queuedForUnits 4 s 10 hids hs (by decide)).2 hlarge).2⟩

end Kernel
end GuestKernel
