/-
# Where the units of a semaphore go

A semaphore has between none and `maxCount` units, and whoever is queued on it asks for at least one and for no more than
it can ever have (`Semaphore.Sound`). So the sums and differences that calls make of its count stay within a word
(`Semaphore.Exact`).

Unless a call cancels the waits on the semaphore, units come in by signals and go out by grants.

| who is granted units | when |
| --- | --- |
| the caller of a poll | the poll succeeds |
| the caller of a wait | the wait is over at once |
| a thread in the queue | a signal ends its wait with the result 0 |

Every other operation leaves the count alone: timeouts, deaths of threads in the queue, calls that fail and calls that
have to wait. The books of any stretch of a run therefore balance (`semaphoreUnits_run`).

Source: specification, 4.6.
-/

import GuestKernel.Proofs.MutexOwnership
import GuestKernel.Proofs.Waking

namespace GuestKernel

namespace Semaphore

variable {s s' : Semaphore} {count need amount : Int32} {q : WaitQueue Int32}

/-! ### A semaphore at any time -/

/-- What holds of a semaphore whatever has been done with it. -/
structure Sound (s : Semaphore) : Prop where
  nonneg : 0 ≤ s.count
  atMost : s.count ≤ s.maxCount
  initial : 0 ≤ s.initialCount ∧ s.initialCount ≤ s.maxCount
  asks : ∀ w ∈ s.waiters, 1 ≤ w.request ∧ w.request ≤ s.maxCount

/-- The units that the waiters of a queue ask for. -/
def units : WaitQueue Int32 → Int
  | [] => 0
  | w :: rest => w.request.toInt + units rest

/-- No difference that `serve` makes wraps. -/
def ServesExactly (count : Int32) : WaitQueue Int32 → Prop
  | [] => True
  | w :: rest => w.request ≤ count →
      (count - w.request).toInt = count.toInt - w.request.toInt ∧ ServesExactly (count - w.request) rest

/-- No arithmetic on the count wraps, whatever call comes next. -/
structure Exact (s : Semaphore) : Prop where
  acquire : ∀ need s', 0 < need → s.acquire? need = some s' → s'.count.toInt = s.count.toInt - need.toInt
  release : ∀ amount, 0 ≤ amount → s.overflows amount = false →
    (s.count + amount).toInt = s.count.toInt + amount.toInt ∧ ServesExactly (s.count + amount) s.waiters

theorem units_append (q q' : WaitQueue Int32) : units (q ++ q') = units q + units q' := by
  induction q with
  | nil => exact (Int.zero_add _).symm
  | cons w rest ih => rw [List.cons_append, units, units, ih, Int.add_assoc]

/-- Units that are added, as long as the semaphore can have them. -/
theorem Sound.toInt_add (h : s.Sound) (hamount : 0 ≤ amount) (hover : s.overflows amount = false) :
    (s.count + amount).toInt = s.count.toInt + amount.toInt ∧ 0 ≤ s.count + amount ∧
      s.count + amount ≤ s.maxCount := by
  have hnonneg := h.nonneg
  have hmax := s.maxCount.toInt_lt
  have hle := of_decide_eq_false hover
  rw [Int32.le_iff_toInt_le, Int32.toInt_zero] at hnonneg hamount
  have hsum : (s.count + amount).toInt = s.count.toInt + amount.toInt := by
    rw [Int32.toInt_add]
    exact Int.bmod_eq_of_le (by omega) (by omega)
  refine ⟨hsum, ?_, ?_⟩
  · rw [Int32.le_iff_toInt_le, hsum, Int32.toInt_zero]
    omega
  · rw [Int32.le_iff_toInt_le, hsum]
    omega

/-- **Serving a queue takes as many units as the waiters served ask for**, and no more than there are. -/
theorem serve_exact (hcount : 0 ≤ count) (hasks : ∀ w ∈ q, 1 ≤ w.request) :
    ServesExactly count q ∧ 0 ≤ (serve count q).1 ∧ (serve count q).1 ≤ count ∧
      (serve count q).1.toInt + units q = count.toInt + units (serve count q).2.1 := by
  induction q generalizing count with
  | nil => exact ⟨trivial, hcount, Int32.le_refl _, rfl⟩
  | cons w rest ih =>
    have hpos : 0 < w.request := Int32.lt_of_lt_of_le (by decide) (hasks w (List.mem_cons_self ..))
    unfold serve
    split
    · next hlt => exact ⟨fun hle => absurd hle (Int32.not_le.mpr hlt), hcount, Int32.le_refl _, rfl⟩
    · next hlt =>
      have hle := Int32.not_lt.mp hlt
      have hsub := Mutex.toInt_sub hpos hle
      have hleft : 0 ≤ count - w.request := by
        rw [Int32.le_iff_toInt_le, hsub, Int32.toInt_zero]
        rw [Int32.le_iff_toInt_le] at hle
        omega
      obtain ⟨hexact, hnonneg, hatMost, hunits⟩ := ih hleft fun w' hw' => hasks w' (List.mem_cons_of_mem _ hw')
      refine ⟨fun _ => ⟨hsub, hexact⟩, hnonneg, ?_, ?_⟩
      · rw [Int32.lt_iff_toInt_lt, Int32.toInt_zero] at hpos
        rw [Int32.le_iff_toInt_le] at hatMost ⊢
        dsimp only
        omega
      · have hcons : units (w :: rest) = w.request.toInt + units rest := rfl
        show (serve (count - w.request) rest).1.toInt + _ = _ + units (serve (count - w.request) rest).2.1
        rw [hcons]
        omega

namespace Sound

variable (h : s.Sound)

include h

theorem pos_of_mem : ∀ w ∈ s.waiters, 1 ≤ w.request := fun w hw => (h.asks w hw).1

/-- **Nothing wraps.** -/
theorem exact : s.Exact where
  acquire need s' hneed hacquire := by
    obtain ⟨-, hle, rfl⟩ := acquire?_eq_some.mp hacquire
    exact Mutex.toInt_sub hneed hle
  release amount hamount hover := by
    obtain ⟨hsum, hnonneg, -⟩ := h.toInt_add hamount hover
    exact ⟨hsum, (serve_exact hnonneg h.pos_of_mem).1⟩

/-- Units that are taken were there. -/
theorem acquire (hneed : 0 < need) (hs : s.acquire? need = some s') : s'.Sound := by
  have hexact := h.exact.acquire need s' hneed hs
  have hatMost := h.atMost
  obtain ⟨-, hle, rfl⟩ := acquire?_eq_some.mp hs
  rw [Int32.lt_iff_toInt_lt, Int32.toInt_zero] at hneed
  rw [Int32.le_iff_toInt_le] at hle hatMost
  refine ⟨?_, ?_, h.initial, h.asks⟩
  · rw [Int32.le_iff_toInt_le, hexact, Int32.toInt_zero]
    omega
  · rw [Int32.le_iff_toInt_le, hexact]
    dsimp only
    omega

/-- A release that does not overflow keeps the count below the maximum. -/
theorem release (hamount : 0 ≤ amount) (hover : s.overflows amount = false) : (s.release amount).1.Sound := by
  obtain ⟨-, hnonneg, hmax⟩ := h.toInt_add hamount hover
  obtain ⟨-, hleft, hle, -⟩ := serve_exact hnonneg h.pos_of_mem
  obtain ⟨front, hq, -⟩ := serve_front (s.count + amount) s.waiters
  refine ⟨hleft, Int32.le_trans hle hmax, h.initial, fun w hw => h.asks w ?_⟩
  rw [hq]
  exact List.mem_append_right front hw

/-- A count that is set anew is within the maximum. -/
theorem reset (hcount : count ≤ s.maxCount) : (s.reset count).Sound := by
  unfold Semaphore.reset
  by_cases hneg : count < 0
  · rw [if_pos hneg]
    exact ⟨h.initial.1, h.initial.2, h.initial, nofun⟩
  · rw [if_neg hneg]
    exact ⟨Int32.not_lt.mp hneg, hcount, h.initial, nofun⟩

/-- Whoever is queued asks for no more than there can be. -/
theorem enqueue {thread : ThreadId} {priority : UInt32} (hneed : 0 < need) (hmax : need ≤ s.maxCount) :
    (s.enqueue ⟨thread, priority, need⟩).Sound := by
  refine ⟨h.nonneg, h.atMost, h.initial, fun w hw => ?_⟩
  rcases List.mem_cons.mp ((WaitQueue.perm_enqueue s.attributes _ s.waiters).mem_iff.mp hw) with rfl | hw
  · exact ⟨Mutex.one_le_count hneed, hmax⟩
  · exact h.asks w hw

theorem remove (thread : ThreadId) : Sound { s with waiters := s.waiters.remove thread } :=
  ⟨h.nonneg, h.atMost, h.initial, fun w hw => h.asks w (List.eraseP_sublist.subset hw)⟩

end Sound
end Semaphore

namespace Object

/-- A semaphore is sound. -/
def SemaphoreSound : Object → Prop
  | semaphore s => s.Sound
  | _ => True

theorem IsNew.semaphoreSound {o : Object} (h : o.IsNew) : o.SemaphoreSound := by
  cases o with
  | semaphore s =>
    obtain ⟨hempty, hnonneg, hmax, hinitial⟩ := h
    refine ⟨hnonneg, hmax, hinitial ▸ ⟨hnonneg, hmax⟩, fun w hw => ?_⟩
    rw [hempty] at hw
    cases hw
  | _ => trivial

/-- A step keeps a semaphore sound. -/
theorem Step.semaphoreSound {l : Label} {o o' : Object} (h : o.Step l o') (hsound : o.SemaphoreSound) :
    o'.SemaphoreSound := by
  cases h with
  | same => exact hsound
  | change _ hc =>
    cases hc with
    | acquire hneed hs => exact Semaphore.Sound.acquire hsound hneed hs
    | release hamount hover => exact Semaphore.Sound.release hsound hamount hover
    | resetSemaphore hcount => exact Semaphore.Sound.reset hsound hcount
    | _ => trivial
  | enqueue _ hq =>
    cases hq with
    | semaphore _ _ _ hneed hmax => exact Semaphore.Sound.enqueue hsound hneed hmax
    | _ => trivial
  | leave =>
    cases o with
    | semaphore s => exact Semaphore.Sound.remove hsound _
    | messagePipe p =>
      unfold removeWaiter
      dsimp only
      split <;> trivial
    | _ => trivial

theorem count_without {s' : Semaphore} {o : Object} {ids : List ThreadId} (h : semaphore s' = o.without ids) :
    ∃ s, o = semaphore s ∧ s'.count = s.count := by
  unfold without at h
  induction ids generalizing o with
  | nil => exact ⟨s', h.symm, rfl⟩
  | cons id rest ih =>
    obtain ⟨s₁, hs₁, hcount⟩ := ih h
    have hkind := kind_removeWaiter o id
    rw [hs₁] at hkind
    cases o with
    | semaphore s =>
      cases hs₁
      exact ⟨s, rfl, hcount⟩
    | _ => cases hkind

end Object

namespace Kernel

variable {k : Kernel} {x : ObjectId} {s s' : Semaphore} {o : Operation} {id : ThreadId} {t : Thread} {w : Wait}

/-- Semaphores are sound in every reachable kernel. -/
theorem semaphoreSound_run (config : KernelConfig) (memory : Memory) (operations : List Operation)
    (hs : ((Kernel.new config memory).run operations).objects.semaphore? x = some s) : s.Sound :=
  objects_run (I := Object.SemaphoreSound) (fun _ h _ => h.semaphoreSound) (fun _ _ _ _ h => h.semaphoreSound)
    config memory operations x (.semaphore s) (ObjectTable.semaphore?_eq_some.mp hs) nofun

/-! ### The books -/

/-- Whether a thread does not wait, and its last wait ended with success. -/
def succeeded (k : Kernel) (id : ThreadId) : Bool :=
  match k.thread? id with
  | some t => t.wait.isNone && t.wakeResult == 0
  | none => false

/-- The units that go to threads in the queue of a semaphore: what those ask for whose waits an operation ends with
success. -/
def handed (k : Kernel) (x : ObjectId) (o : Operation) : Int :=
  match k.objects.semaphore? x with
  | some s => Semaphore.units (s.waiters.filter fun w => (k.after o).succeeded w.thread)
  | none => 0

/-- The units of a semaphore that an operation grants. -/
def granted (k : Kernel) (x : ObjectId) (o : Operation) : Int :=
  if k.completes (.semaphore, x) o then
    match o with
    | .syscall (.pollSemaphore _ need) | .syscall (.waitSemaphore _ need ..) => need.toInt
    | .syscall (.signalSemaphore ..) => k.handed x o
    | _ => 0
  else 0

/-- The units that an operation adds to a semaphore: the amount of a signal that succeeds. -/
def signalled (k : Kernel) (x : ObjectId) (o : Operation) : Int :=
  if k.completes (.semaphore, x) o then
    match o with
    | .syscall (.signalSemaphore _ amount) => amount.toInt
    | _ => 0
  else 0

end Kernel

/-- Whether an operation is a call that cancels all waits on a semaphore. -/
def Operation.cancelsSemaphore (x : ObjectId) : Operation → Bool
  | syscall (.cancelSemaphore y ..) => y = x
  | _ => false

namespace Kernel

variable {k : Kernel} {x : ObjectId} {s s' : Semaphore} {o : Operation} {id : ThreadId} {t : Thread} {w : Wait}
  {α : Type} {call : Syscall} {k' : Kernel} {s₁ : Semaphore} {L : List ThreadId}

/-- A semaphore that an operation leaves was there before, with as many units as the books say. -/
def Balances (k : Kernel) (x : ObjectId) (o : Operation) : Prop :=
  ∀ s', (k.after o).objects.semaphore? x = some s' → ∃ s, k.objects.semaphore? x = some s ∧
    s'.count.toInt + k.granted x o = s.count.toInt + k.signalled x o

theorem granted_of_not (h : k.completes (.semaphore, x) o = false) : k.granted x o = 0 := by
  unfold granted
  rw [h]
  rfl

theorem signalled_of_not (h : k.completes (.semaphore, x) o = false) : k.signalled x o = 0 := by
  unfold signalled
  rw [h]
  rfl

/-- An operation that is not carried out on the semaphore, and leaves the count alone. -/
theorem balances_of_not (h : k.completes (.semaphore, x) o = false)
    (hcount : ∀ s', (k.after o).objects.semaphore? x = some s' →
      ∃ s, k.objects.semaphore? x = some s ∧ s'.count = s.count) : k.Balances x o := by
  intro s' hs'
  obtain ⟨s, hs, heq⟩ := hcount s' hs'
  refine ⟨s, hs, ?_⟩
  rw [granted_of_not h, signalled_of_not h, heq]

/-- A call that is refused. -/
theorem balances_refuse {e : KernelError} {f : α → Answer}
    (hquiet : Quiet k k') (hreply : k.perform call = (k'.refuse e).map f) : k.Balances x (.syscall call) := by
  refine balances_of_not (not_completes_of_result fun a ha => ?_) fun s' hs' => ⟨s', ?_, rfl⟩
  · rw [hreply] at ha
    cases ha
  · replace hs' : (k.perform call).kernel.objects.semaphore? x = some s' := hs'
    rw [hreply] at hs'
    rw [← hquiet.objects]
    exact hs'

/-- A semaphore that has been stored, after further work on threads. -/
theorem semaphore_of_put (hid : s₁.id = x)
    (hthreads : OnlyThreads (k.put (.semaphore s₁)) k') (hs' : k'.objects.semaphore? x = some s') : s' = s₁ :=
  Object.semaphore.inj (object_of_put hid hthreads (ObjectTable.semaphore?_eq_some.mp hs') nofun)

/-- The caller gets its units at once. -/
theorem balances_acquire {need : Int32} {f : α → Answer} {a : α}
    (h : s.Sound) (hs : k.objects.semaphore? s.id = some s) (hneed : 0 < need) (hacquire : s.acquire? need = some s₁)
    (hreply : k.perform call = ((k.put (.semaphore s₁)).done a).map f)
    (hcompletes : k.completes (.semaphore, s.id) (.syscall call) = true →
      k.granted s.id (.syscall call) = need.toInt ∧ k.signalled s.id (.syscall call) = 0)
    (hcall : call.object? = some (.semaphore, s.id)) (hfinal : (f a).isFinal = true) :
    k.Balances s.id (.syscall call) := by
  have hid : s₁.id = s.id := (Object.Change.acquire hneed hacquire).id_eq
  obtain ⟨hgranted, hsignalled⟩ := hcompletes (completes_of_result hcall (by rw [hreply]; rfl) hfinal)
  intro s' hs'
  replace hs' : (k.perform call).kernel.objects.semaphore? s.id = some s' := hs'
  rw [hreply] at hs'
  have heq : s' = s₁ := semaphore_of_put hid (.of_objects rfl rfl rfl rfl) hs'
  refine ⟨s, hs, ?_⟩
  have hexact := h.exact.acquire need s₁ hneed hacquire
  rw [heq, hgranted, hsignalled]
  omega

/-- A poll takes what it asks for, or nothing. -/
theorem balances_pollSemaphore (h : s.Sound) (hs : k.objects.semaphore? s.id = some s) (need : Int32) :
    k.Balances s.id (.syscall (.pollSemaphore s.id need)) := by
  have hperform : k.perform (.pollSemaphore s.id need) = (k.pollSemaphore s.id need).map fun _ => .done := rfl
  unfold pollSemaphore at hperform
  rw [hs] at hperform
  dsimp only at hperform
  by_cases hneed : need ≤ 0
  · rw [if_pos hneed] at hperform
    exact balances_refuse (.refl k) hperform
  rw [if_neg hneed] at hperform
  cases hacquire : s.acquire? need with
  | none =>
    rw [hacquire] at hperform
    exact balances_refuse (.refl k) hperform
  | some s₁ =>
    rw [hacquire] at hperform
    refine balances_acquire h hs (Int32.not_le.mp hneed) hacquire hperform (fun hc => ?_) rfl rfl
    exact ⟨if_pos hc, ite_self _⟩

/-- A wait takes what it asks for, or nothing. -/
theorem balances_waitSemaphore (h : s.Sound) (hs : k.objects.semaphore? s.id = some s) (need : Int32)
    (timeoutAddress : UInt32) (callbacks : Bool) :
    k.Balances s.id (.syscall (.waitSemaphore s.id need timeoutAddress callbacks)) := by
  have hperform : k.perform (.waitSemaphore s.id need timeoutAddress callbacks) =
    (k.waitSemaphore s.id need timeoutAddress callbacks).map .outcome := rfl
  unfold waitSemaphore at hperform
  rw [hs] at hperform
  dsimp only at hperform
  by_cases hneed : need ≤ 0 ∨ s.maxCount < need
  · rw [if_pos hneed] at hperform
    exact balances_refuse (.refl k) hperform
  rw [if_neg hneed] at hperform
  rw [not_or] at hneed
  cases hacquire : s.acquire? need with
  | none =>
    rw [hacquire] at hperform
    dsimp only at hperform
    obtain ⟨k', e, hquiet, -, hblock⟩ | ⟨thread, timeout, -, -, -, hblock⟩ := block_cases k _ need _ <;>
      rw [hblock] at hperform
    · exact balances_refuse hquiet hperform
    · -- The caller is queued, and gets nothing for now.
      refine balances_of_not (not_completes_of_result fun a ha => ?_) fun s' hs' => ⟨s, hs, ?_⟩
      · rw [hperform] at ha
        cases ha
        rfl
      · replace hs' : (k.perform (.waitSemaphore s.id need timeoutAddress callbacks)).kernel.objects.semaphore? s.id =
          some s' := hs'
        rw [hperform] at hs'
        have heq : s' = s.enqueue ⟨thread.id, thread.priority, need⟩ :=
          semaphore_of_put rfl (.of_objects rfl rfl rfl rfl) hs'
        rw [heq]
        rfl
  | some s₁ =>
    rw [hacquire] at hperform
    refine balances_acquire h hs (Int32.not_le.mp hneed.1) hacquire hperform (fun hc => ?_) rfl rfl
    exact ⟨if_pos hc, ite_self _⟩

/-- Of the threads in a queue, those woken have succeeded, and the others go on waiting. -/
theorem filter_succeeded {front rest : WaitQueue Int32} {k₁ : Kernel} (h : k.Placed L)
    (hs : k.objects.semaphore? x = some s) (hq : s.waiters = front ++ rest) (hsame : ∀ id, k₁.thread? id = k.thread? id) :
    s.waiters.filter (fun w => (k₁.wakeAll front.threads 0).succeeded w.thread) = front := by
  have hget := ObjectTable.semaphore?_eq_some.mp hs
  have honce : (front.threads ++ rest.threads).Nodup := by
    have hnodup := h.nodup_waiting hget
    rw [show (Object.semaphore s).waiting = s.waiters.threads from rfl, hq] at hnodup
    rwa [WaitQueue.threads, List.map_append] at hnodup
  have hwaits : ∀ w ∈ front ++ rest, ∃ t d, k₁.thread? w.thread = some t ∧ t.wait = some d := by
    intro w hw
    have hmem : w.thread ∈ (Object.semaphore s).waiting := List.mem_map_of_mem (hq ▸ hw)
    obtain ⟨t, d, ht, hd, -⟩ := h.waits hget hmem
    exact ⟨t, d, (hsame _).trans ht, hd⟩
  have hfront : ∀ w ∈ front, (k₁.wakeAll front.threads 0).succeeded w.thread = true := by
    intro w hw
    obtain ⟨t, d, ht, hd⟩ := hwaits w (List.mem_append_left _ hw)
    have hmem : w.thread ∈ front.threads := List.mem_map_of_mem hw
    unfold succeeded
    rw [thread?_wakeAll, if_pos hmem, ht, Option.map_some, Thread.woken_of_waiting hd]
    rfl
  have hrest : ∀ w ∈ rest, ¬ (k₁.wakeAll front.threads 0).succeeded w.thread = true := by
    intro w hw
    obtain ⟨t, d, ht, hd⟩ := hwaits w (List.mem_append_right _ hw)
    have hout : w.thread ∉ front.threads := fun hmem =>
      (List.nodup_append.mp honce).2.2 _ hmem _ (List.mem_map_of_mem hw) rfl
    unfold succeeded
    rw [thread?_wakeAll, if_neg hout, ht]
    simp [hd]
  rw [hq, List.filter_append, List.filter_eq_self.mpr hfront, List.filter_eq_nil_iff.mpr hrest, List.append_nil]

/-- What a signal gives is in the count or has gone to those it served. -/
theorem balances_signalSemaphore (hplaced : k.Placed L) (h : s.Sound)
    (hs : k.objects.semaphore? s.id = some s) (amount : Int32) :
    k.Balances s.id (.syscall (.signalSemaphore s.id amount)) := by
  have hperform : k.perform (.signalSemaphore s.id amount) = (k.signalSemaphore s.id amount).map fun _ => .done := rfl
  unfold signalSemaphore at hperform
  rw [hs] at hperform
  dsimp only at hperform
  by_cases hamount : amount < 0
  · rw [if_pos hamount] at hperform
    exact balances_refuse (.refl k) hperform
  rw [if_neg hamount] at hperform
  by_cases hover : s.overflows amount = true
  · rw [if_pos hover] at hperform
    exact balances_refuse (.refl k) hperform
  rw [if_neg hover] at hperform
  have hcompletes : k.completes (.semaphore, s.id) (.syscall (.signalSemaphore s.id amount)) = true :=
    completes_of_result rfl (a := .done) (by rw [hperform]; rfl) rfl
  have hafter : k.after (.syscall (.signalSemaphore s.id amount)) =
      (k.put (.semaphore (s.release amount).1)).wakeAll (s.release amount).2 0 := congrArg Reply.kernel hperform
  intro s' hs'
  rw [hafter] at hs'
  have hid : (s.release amount).1.id = s.id := rfl
  have heq : s' = (s.release amount).1 := semaphore_of_put hid (onlyThreads_wakeAll ..) hs'
  refine ⟨s, hs, ?_⟩
  obtain ⟨hsum, hnonneg, -⟩ := h.toInt_add (Int32.not_lt.mp hamount) (Bool.eq_false_iff.mpr hover)
  obtain ⟨-, -, -, hunits⟩ := Semaphore.serve_exact hnonneg h.pos_of_mem
  obtain ⟨front, hq, hserved⟩ := Semaphore.serve_front (s.count + amount) s.waiters
  -- Those served are the front of the queue, and nobody else is woken.
  have hhanded : k.handed s.id (.syscall (.signalSemaphore s.id amount)) = Semaphore.units front := by
    unfold handed
    rw [hs, hafter]
    dsimp only
    rw [show (s.release amount).2 = front.threads from hserved, filter_succeeded hplaced hs hq]
    exact thread?_put_of_kind_ne (o := .semaphore s) _ (ObjectTable.semaphore?_eq_some.mp hs) nofun rfl rfl
  have hgranted : k.granted s.id (.syscall (.signalSemaphore s.id amount)) = Semaphore.units front :=
    (if_pos hcompletes).trans hhanded
  have hsignalled : k.signalled s.id (.syscall (.signalSemaphore s.id amount)) = amount.toInt := if_pos hcompletes
  have hsplit : Semaphore.units s.waiters =
      Semaphore.units front + Semaphore.units (Semaphore.serve (s.count + amount) s.waiters).2.1 := by
    rw [← Semaphore.units_append, ← hq]
  rw [heq, hgranted, hsignalled]
  show (Semaphore.serve (s.count + amount) s.waiters).1.toInt + _ = _
  omega

/-- An operation on other objects leaves the count alone. -/
theorem balances_other (hn : k.started.Nodup) (hx : x ≠ k.nextId) (ho : o.object? ≠ some (.semaphore, x)) :
    k.Balances x o := by
  refine balances_of_not (not_completes_of_object? ho) fun s' hs' => ?_
  obtain ⟨o₁, ids, ho₁, heq⟩ := without_after hn hx (ObjectTable.semaphore?_eq_some.mp hs') nofun nofun ho
  obtain ⟨s, rfl, hcount⟩ := Object.count_without heq
  exact ⟨s, ObjectTable.semaphore?_eq_some.mpr ho₁, hcount⟩

/-- **The books of every operation balance**, unless it cancels the waits on the semaphore. -/
theorem balances_after (hplaced : k.Placed L)
    (hsound : ∀ s, k.objects.semaphore? x = some s → s.Sound) (hn : k.started.Nodup) (hx : x ≠ k.nextId)
    (hcancel : o.cancelsSemaphore x = false) : k.Balances x o := by
  intro s' hs'
  by_cases ho : o.object? = some (.semaphore, x)
  · obtain ⟨o₁, ho₁, hkind⟩ := kind_of_after hn hx (ObjectTable.semaphore?_eq_some.mp hs') nofun
    obtain ⟨s, rfl⟩ : ∃ s, o₁ = .semaphore s := by
      cases o₁ <;> first | exact ⟨_, rfl⟩ | cases hkind
    have hs := ObjectTable.semaphore?_eq_some.mpr ho₁
    have h := hsound s hs
    have hid : s.id = x := ObjectTable.id_of_get? ho₁
    subst hid
    cases o with
    | syscall call =>
      cases call with
      | signalSemaphore y amount =>
        cases ho
        exact balances_signalSemaphore hplaced h hs amount s' hs'
      | waitSemaphore y need timeoutAddress callbacks =>
        cases ho
        exact balances_waitSemaphore h hs need timeoutAddress callbacks s' hs'
      | pollSemaphore y need =>
        cases ho
        exact balances_pollSemaphore h hs need s' hs'
      | cancelSemaphore y count waitingAddress =>
        cases ho
        exact absurd rfl (of_decide_eq_false hcancel)
      | _ => cases ho
    | _ => cases ho
  · exact balances_other hn hx ho s' hs'

/-! ### Runs -/

/-- The books of operations balance if those of each do. -/
theorem balances_run {operations : List Operation} (h : k.Along (fun k o => k.Balances x o) operations)
    (hs' : (k.run operations).objects.semaphore? x = some s') : ∃ s, k.objects.semaphore? x = some s ∧
      s'.count.toInt + k.sumAlong (fun k o => k.granted x o) operations =
        s.count.toInt + k.sumAlong (fun k o => k.signalled x o) operations := by
  induction operations generalizing k with
  | nil => exact ⟨s', hs', rfl⟩
  | cons o rest ih =>
    obtain ⟨s₁, hs₁, hrest⟩ := ih h.2 hs'
    obtain ⟨s, hs, hfirst⟩ := h.1 s₁ hs₁
    refine ⟨s, hs, ?_⟩
    unfold sumAlong
    omega

/-- The books of operations balance that do not cancel the waits on the semaphore, from any reachable state on. -/
theorem balances_stretch (config : KernelConfig) (memory : Memory) {before stretch : List Operation}
    (hids : (Kernel.new config memory).handedOut (before ++ stretch) < 2 ^ 32 - 1)
    (hcancel : ∀ o ∈ stretch, o.cancelsSemaphore x = false)
    (hs : ((Kernel.new config memory).run before).objects.semaphore? x = some s) :
    ((Kernel.new config memory).run before).Along (fun k o => k.Balances x o) stretch := by
  have hnodup := nodup_started_run config memory
  have hfirst := nextId_new config memory
  refine along_of_prefixes fun first o rest heq => ?_
  rw [← run_append]
  have hle := handedOut_le_append (Kernel.new config memory) (before ++ first) (o :: rest)
  rw [List.append_assoc, ← heq] at hle
  have hplaced := (placed_run config memory (before ++ first) (by omega)).2
  refine balances_after hplaced (fun s hs => semaphoreSound_run config memory _ hs) (hnodup _) ?_
    (hcancel o (heq ▸ List.mem_append_right first (List.mem_cons_self ..)))
  -- The semaphore had its id before the stretch began.
  intro hx
  have hbefore := handedOut_le_append (Kernel.new config memory) before first
  have hstart := toNat_nextId_run before (nodup_started_new config memory) (by omega)
  have hnow := toNat_nextId_run (before ++ first) (nodup_started_new config memory) (by omega)
  obtain hlt | hnone := (placed_run config memory before (by omega)).1.2 x
  · rw [hx] at hlt
    omega
  · rw [ObjectTable.semaphore?_eq_some.mp hs] at hnone
    cases hnone

/-- **The units of a semaphore are conserved.** In every reachable state every semaphore is sound, and no arithmetic on its
count wraps. Over operations that do not cancel the waits on it, what it has left and what has been granted is what it
had and what has been signalled. -/
theorem semaphoreUnits_run (config : KernelConfig) (memory : Memory) (before stretch : List Operation) (x : ObjectId) :
    (∀ s, ((Kernel.new config memory).run (before ++ stretch)).objects.semaphore? x = some s → s.Sound ∧ s.Exact) ∧
      ((Kernel.new config memory).handedOut (before ++ stretch) < 2 ^ 32 - 1 →
        (∀ o ∈ stretch, o.cancelsSemaphore x = false) →
        ∀ s s', ((Kernel.new config memory).run before).objects.semaphore? x = some s →
          ((Kernel.new config memory).run (before ++ stretch)).objects.semaphore? x = some s' →
          s'.count.toInt + ((Kernel.new config memory).run before).sumAlong (fun k o => k.granted x o) stretch =
            s.count.toInt + ((Kernel.new config memory).run before).sumAlong (fun k o => k.signalled x o) stretch) := by
  refine ⟨fun s hs => ?_, fun hids hcancel s s' hs hs' => ?_⟩
  · have hsound := semaphoreSound_run config memory _ hs
    exact ⟨hsound, hsound.exact⟩
  · rw [run_append] at hs'
    obtain ⟨s₀, hs₀, hbooks⟩ := balances_run (balances_stretch config memory hids hcancel hs) hs'
    rw [hs, Option.some.injEq] at hs₀
    rw [hs₀]
    exact hbooks

/-- Three threads run, and there is a semaphore with one unit. -/
def oneUnit : List Operation :=
  [.syscall (.createThread "first" 0x08900000 32 0x1000 0), .syscall (.createThread "second" 0x08900000 33 0x1000 0),
    .syscall (.createThread "third" 0x08900000 34 0x1000 0), .syscall (.startThread 1 0 0), .syscall (.startThread 2 0 0),
    .syscall (.startThread 3 0 0), .syscall (.createSemaphore "slots" 0 1 10), .guestWrite 0x08800000 [100, 0, 0, 0],
    .dispatch]

/-- Two threads queue up, the second for a while only. A poll fails while they wait, a signal is not enough for the first,
the second gives up, the first is suspended and then served, another signal is too much, and the third thread takes what
is left by a poll and by a wait. -/
def shortSupply : List Operation :=
  [.syscall (.waitSemaphore 4 3 0 false), .dispatch, .syscall (.waitSemaphore 4 2 0x08800000 false), .dispatch,
    .syscall (.pollSemaphore 4 1), .syscall (.signalSemaphore 4 1), .advanceClock 100, .suspendThread 1,
    .syscall (.signalSemaphore 4 4), .syscall (.signalSemaphore 4 8), .syscall (.pollSemaphore 4 2),
    .syscall (.waitSemaphore 4 1 0 false)]

/-- Of 1 unit and 5 more, 3 went to the queue, 2 to a poll and 1 to a wait. -/
theorem semaphoreUnits_run_shortSupply : ∃ s s',
    (Kernel.new {} {}).handedOut (oneUnit ++ shortSupply) < 2 ^ 32 - 1 ∧
      (∀ o ∈ shortSupply, o.cancelsSemaphore 4 = false) ∧
      ((Kernel.new {} {}).run oneUnit).objects.semaphore? 4 = some s ∧ s.count = 1 ∧
      ((Kernel.new {} {}).run (oneUnit ++ shortSupply)).objects.semaphore? 4 = some s' ∧ s'.Sound ∧ s'.Exact ∧
      s'.count.toInt + (3 + 2 + 1) = s.count.toInt + (1 + 4) := by
  have hids : (Kernel.new {} {}).handedOut (oneUnit ++ shortSupply) < 2 ^ 32 - 1 := handedOut_lt (by decide)
  have hcancel : ∀ o ∈ shortSupply, o.cancelsSemaphore 4 = false := by decide
  have hgranted : ((Kernel.new {} {}).run oneUnit).sumAlong (fun k o => k.granted 4 o) shortSupply = 3 + 2 + 1 := by
    decide +kernel
  have hsignalled : ((Kernel.new {} {}).run oneUnit).sumAlong (fun k o => k.signalled 4 o) shortSupply = 1 + 4 := by
    decide +kernel
  obtain ⟨s, hs⟩ := Option.isSome_iff_exists.mp
    (show (((Kernel.new {} {}).run oneUnit).objects.semaphore? 4).isSome by decide +kernel)
  obtain ⟨s', hs'⟩ := Option.isSome_iff_exists.mp
    (show (((Kernel.new {} {}).run (oneUnit ++ shortSupply)).objects.semaphore? 4).isSome by decide +kernel)
  have hstart : (((Kernel.new {} {}).run oneUnit).objects.semaphore? 4).map Semaphore.count = some 1 := by
    decide +kernel
  obtain ⟨hsound, hstretch⟩ := semaphoreUnits_run {} {} oneUnit shortSupply 4
  have hbooks := hstretch hids hcancel s s' hs hs'
  rw [hgranted, hsignalled] at hbooks
  rw [hs] at hstart
  exact ⟨s, s', hids, hcancel, hs, Option.some.inj hstart, hs', (hsound s' hs').1, (hsound s' hs').2, hbooks⟩

end Kernel
end GuestKernel
