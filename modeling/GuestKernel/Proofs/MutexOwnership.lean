/-
# Who owns a mutex

A mutex is free or owned, and whoever owns it holds it a positive number of times. Nobody waits for a free mutex, and
the owner does not wait for its own (`Mutex.Sound`). The last needs more than the mutex: a mutex passes to the first of
its queue, who is then the owner, and would still stand further down the queue if it could be queued twice.

Apart from calls that cancel the waits on it, a mutex changes hands, or is held more or fewer times, by calls of the
running thread only (`Kernel.Turn`).

| call | the mutex before | and after |
| --- | --- | --- |
| lock | free | the caller's, with the count it asked for |
| lock | the caller's, and recursive | held `count` times more |
| unlock | the caller's | held `count` times less |
| unlock of all holds | the caller's, nobody waits | free |
| unlock of all holds | the caller's, somebody waits | the first waiter's, with the count it asked for |

What a thread holds is therefore what it got as it became the owner, what it has locked since and less what it has
unlocked since, as numbers that do not wrap (`OwnsThroughout.count_eq`).

Source: specification, 4.6.
-/

import GuestKernel.Proofs.QueuePlaces
import GuestKernel.Proofs.Settled

namespace GuestKernel

namespace Mutex

variable {m m' : Mutex} {thread : ThreadId} {count : Int32} {held : Int32}

/-! ### Counts -/

/-- More holds, as long as they can be counted. -/
theorem toInt_add (hheld : 0 ≤ held) (hcount : 0 < count)
    (hmax : held.toInt + count.toInt ≤ maxLockCount) : (held + count).toInt = held.toInt + count.toInt := by
  rw [Int32.le_iff_toInt_le, Int32.toInt_zero] at hheld
  rw [Int32.lt_iff_toInt_lt, Int32.toInt_zero] at hcount
  unfold maxLockCount at hmax
  rw [Int32.toInt_add]
  exact Int.bmod_eq_of_le (by omega) (by omega)

/-- Fewer holds. -/
theorem toInt_sub (hcount : 0 < count) (hle : count ≤ held) : (held - count).toInt = held.toInt - count.toInt := by
  have hmax := held.toInt_lt
  rw [Int32.lt_iff_toInt_lt, Int32.toInt_zero] at hcount
  rw [Int32.le_iff_toInt_le] at hle
  rw [Int32.toInt_sub]
  exact Int.bmod_eq_of_le (by omega) (by omega)

/-- An unlock that leaves nothing gives up all holds. -/
theorem eq_of_sub_le (hcount : 0 < count) (hle : count ≤ held) (hleft : held - count ≤ 0) : held = count := by
  have hsub := toInt_sub hcount hle
  rw [Int32.le_iff_toInt_le] at hle
  rw [Int32.le_iff_toInt_le, Int32.toInt_zero] at hleft
  exact Int32.toInt_inj.mp (by omega)

theorem one_le_count (hpos : 0 < count) : 1 ≤ count := by
  have hone : (1 : Int32).toInt = 1 := rfl
  rw [Int32.lt_iff_toInt_lt, Int32.toInt_zero] at hpos
  rw [Int32.le_iff_toInt_le]
  omega

theorem count_eq_one (hpos : 0 < count) (hle : ¬ 1 < count) : count = 1 :=
  Int32.le_antisymm (Int32.not_lt.mp hle) (one_le_count hpos)

/-- A legal count is positive, and one unless the mutex is recursive. -/
theorem pos_of_checkCount (h : m.checkCount count = .ok ()) : 0 < count ∧ (m.isRecursive = false → count = 1) := by
  unfold checkCount at h
  split at h
  · cases h
  · next hcheck =>
    rw [not_or, not_and, not_not] at hcheck
    have hpos := Int32.not_le.mp hcheck.1
    refine ⟨hpos, fun hrec => ?_⟩
    exact count_eq_one hpos fun hlt => Bool.noConfusion (hrec.symm.trans (hcheck.2 hlt))

/-! ### A mutex at any time -/

/-- What holds of a mutex whatever has been done with it. -/
structure Sound (m : Mutex) : Prop where
  nonneg : 0 ≤ m.lockCount
  free : m.owner = none ↔ m.lockCount = 0
  idle : m.owner = none → m.waiters = []
  apart : ∀ t, m.owner = some t → t ∉ m.waiters.threads
  asks : ∀ w ∈ m.waiters, 1 ≤ w.request ∧ (m.isRecursive = false → w.request = 1)
  single : m.isRecursive = false → m.lockCount ≤ 1

namespace Sound

theorem pos (h : m.Sound) (hown : m.owner = some thread) : 0 < m.lockCount := by
  refine Int32.lt_of_le_of_ne h.nonneg fun hzero => ?_
  rw [h.free.mpr hzero.symm] at hown
  cases hown

/-- An owner with a positive count, of which nobody in the queue knows. -/
theorem own (hpos : 0 < count) (hone : m.isRecursive = false → count = 1) {waiters : WaitQueue Int32}
    (hout : thread ∉ waiters.threads) (hasks : ∀ w ∈ waiters, 1 ≤ w.request ∧ (m.isRecursive = false → w.request = 1)) :
    Sound { m with owner := some thread, lockCount := count, waiters } where
  nonneg := Int32.le_of_lt hpos
  free := ⟨nofun, fun hzero => absurd hzero.symm (Int32.ne_of_lt hpos)⟩
  idle := nofun
  apart t ht := by
    cases ht
    exact hout
  asks := hasks
  single hrec := by
    rw [hone hrec]
    exact Int32.le_refl _

/-- A free mutex, for which nobody waits. -/
theorem unheld (m : Mutex) : Sound { m with owner := none, lockCount := 0, waiters := [] } where
  nonneg := Int32.le_refl 0
  free := ⟨fun _ => rfl, fun _ => rfl⟩
  idle _ := rfl
  apart := nofun
  asks := nofun
  single _ := show (0 : Int32) ≤ 1 by decide

/-- A lock that is taken keeps the mutex sound. -/
theorem lock (h : m.Sound) (hcount : m.checkCount count = .ok ())
    (hl : m.tryLock thread count = .ok (.acquired m')) : m'.Sound := by
  obtain ⟨hpos, hone⟩ := pos_of_checkCount hcount
  obtain ⟨hfree, rfl⟩ | ⟨hown, hrec, hmax, rfl⟩ := tryLock_acquired hl
  · have hempty := h.idle hfree
    refine own (m := m) hpos hone (fun hmem => ?_) h.asks
    rw [hempty] at hmem
    cases hmem
  · have hsum := toInt_add h.nonneg hpos hmax
    have hheld := h.pos hown
    rw [Int32.lt_iff_toInt_lt, Int32.toInt_zero] at hheld hpos
    have hpos' : 0 < m.lockCount + count := by
      rw [Int32.lt_iff_toInt_lt, hsum, Int32.toInt_zero]
      omega
    have hnew := own (m := m) hpos' (fun hnot => absurd hrec (Bool.eq_false_iff.mp hnot)) (h.apart thread hown) h.asks
    rwa [← hown] at hnew

/-- A mutex passes to the first waiter, who stands in the queue once. -/
theorem unlock (h : m.Sound) (honce : m.waiters.threads.Nodup) (hpos : 0 < count) {next : Option ThreadId}
    (hu : m.unlock thread count = .ok (m', next)) : m'.Sound := by
  obtain ⟨hown, hle, ⟨hleft, -, rfl⟩ | ⟨hleft, hempty, -, rfl⟩ | ⟨hleft, w, rest, hq, -, rfl⟩⟩ := unlock_ok hu
  · have hsub := toInt_sub hpos hle
    have hnew := own (m := m) hleft ?_ (h.apart thread hown) h.asks
    · rwa [← hown] at hnew
    · intro hrec
      have hsingle := h.single hrec
      refine count_eq_one hleft fun hlt => ?_
      rw [Int32.lt_iff_toInt_lt] at hlt hpos
      rw [Int32.le_iff_toInt_le] at hsingle
      rw [Int32.toInt_zero] at hpos
      omega
  · have hall := eq_of_sub_le hpos hle hleft
    have hzero : m.lockCount - count = 0 := by rw [hall, Int32.sub_self]
    rw [hzero, hempty]
    exact unheld m
  · rw [hq] at honce
    have hasks : ∀ w' ∈ w :: rest, 1 ≤ w'.request ∧ (m.isRecursive = false → w'.request = 1) := hq ▸ h.asks
    obtain ⟨hone, hrec⟩ := hasks w (List.mem_cons_self ..)
    exact own (m := m) (Int32.lt_of_lt_of_le (by decide) hone) hrec (List.nodup_cons.mp honce).1
      fun w' hw' => hasks w' (List.mem_cons_of_mem _ hw')

/-- A mutex for which nobody waits, with or without an owner. -/
theorem quiet {owner : Option ThreadId} (hnonneg : 0 ≤ count) (howner : owner = none ↔ count = 0)
    (hone : 1 < count → m.isRecursive = true) : Sound { m with owner, lockCount := count, waiters := [] } := by
  cases owner with
  | none =>
    rw [howner.mp rfl]
    exact unheld m
  | some thread =>
    have hpos : 0 < count := Int32.lt_of_le_of_ne hnonneg fun hzero => nomatch howner.mpr hzero.symm
    refine own hpos (fun hrec => ?_) nofun nofun
    exact count_eq_one hpos fun hlt => Bool.noConfusion (hrec.symm.trans (hone hlt))

theorem reset {owner : Option ThreadId} (hcount : 1 < count → m.isRecursive = true)
    (howner : owner.isSome = true ↔ 0 < count) : (m.reset owner count).Sound := by
  unfold Mutex.reset
  by_cases hneg : count < 0
  · have hnone : owner = none := Option.not_isSome_iff_eq_none.mp fun hsome =>
      Int32.lt_asymm hneg (howner.mp hsome)
    rw [if_pos hneg, hnone]
    exact unheld m
  · have hnonneg := Int32.not_lt.mp hneg
    rw [if_neg hneg]
    refine quiet hnonneg ?_ hcount
    rw [← Option.not_isSome_iff_eq_none, howner, Int32.not_lt]
    exact ⟨fun hle => Int32.le_antisymm hle hnonneg, fun hzero => hzero ▸ Int32.le_refl 0⟩

/-- Whoever is queued is not the owner, and there is one. -/
theorem enqueue (h : m.Sound) {owner : ThreadId} {priority : UInt32} (hcount : m.checkCount count = .ok ())
    (hown : m.owner = some owner) (hne : owner ≠ thread) : (m.enqueue ⟨thread, priority, count⟩).Sound := by
  obtain ⟨hpos, hone⟩ := pos_of_checkCount hcount
  have hperm := WaitQueue.perm_enqueue m.attributes ⟨thread, priority, count⟩ m.waiters
  refine ⟨h.nonneg, h.free, fun hfree => ?_, fun t ht hmem => ?_, fun w hw => ?_, h.single⟩
  · rw [show m.owner = none from hfree] at hown
    cases hown
  · rw [show m.owner = some t from ht, Option.some.injEq] at hown
    subst hown
    rcases List.mem_cons.mp ((hperm.map (·.thread)).mem_iff.mp hmem) with heq | hmem
    · exact hne heq
    · exact h.apart t ht hmem
  · rcases List.mem_cons.mp (hperm.mem_iff.mp hw) with rfl | hw
    · exact ⟨one_le_count hpos, hone⟩
    · exact h.asks w hw

theorem remove (h : m.Sound) (thread : ThreadId) : Sound { m with waiters := m.waiters.remove thread } := by
  have hsub : (m.waiters.remove thread).Sublist m.waiters := List.eraseP_sublist
  refine ⟨h.nonneg, h.free, fun hfree => ?_, fun t ht hmem => ?_, fun w hw => h.asks w (hsub.subset hw), h.single⟩
  · show m.waiters.remove thread = []
    rw [h.idle hfree]
    rfl
  · exact h.apart t ht (List.map_subset _ hsub.subset hmem)

end Sound
end Mutex

namespace Object

/-- A mutex is sound. -/
def MutexSound : Object → Prop
  | mutex m => m.Sound
  | _ => True

theorem IsNew.mutexSound {o : Object} (h : o.IsNew) : o.MutexSound := by
  cases o with
  | mutex m =>
    obtain ⟨hempty, hnonneg, howner, hone⟩ := h
    have hsound := Mutex.Sound.quiet hnonneg howner hone
    rwa [← hempty] at hsound
  | _ => trivial

/-- A step keeps a mutex sound. -/
theorem Step.mutexSound {l : Label} {o o' : Object} (h : o.Step l o') (honce : o.waiting.Nodup)
    (hsound : o.MutexSound) : o'.MutexSound := by
  cases h with
  | same => exact hsound
  | change _ hc =>
    cases hc with
    | lock hcount hl => exact Mutex.Sound.lock hsound hcount hl
    | unlock hpos hu => exact Mutex.Sound.unlock hsound honce hpos hu
    | resetMutex hcount howner => exact .reset hcount howner
    | _ => trivial
  | enqueue _ hq =>
    cases hq with
    | mutex _ _ _ hcount howner hne => exact Mutex.Sound.enqueue hsound hcount howner hne
    | _ => trivial
  | leave =>
    cases o with
    | mutex m => exact Mutex.Sound.remove hsound _
    | messagePipe p =>
      unfold removeWaiter
      dsimp only
      split <;> trivial
    | _ => trivial

end Object

namespace Kernel

variable {k : Kernel} {x : ObjectId} {m m' : Mutex} {o : Operation} {t : ThreadId} {count : Int32}

/-- A coherent kernel in which nobody stands in two queues, and all mutexes are sound. -/
structure Orderly (k : Kernel) : Prop where
  coherent : k.Coherent ∧ k.IdsBelow
  placed : k.Placed []
  mutexes : k.Objects Object.MutexSound

theorem Orderly.sound (h : k.Orderly) (hm : k.objects.mutex? x = some m) : m.Sound :=
  h.mutexes x (.mutex m) (ObjectTable.mutex?_eq_some.mp hm) nofun

theorem orderly_new (config : KernelConfig) (memory : Memory) : (Kernel.new config memory).Orderly := by
  refine ⟨coherent_new config memory, placed_new config memory, fun x o ho => ?_⟩
  rw [get?_new] at ho
  cases ho

/-- One move keeps mutexes sound: a mutex that passes on does so from a queue without repetition. -/
theorem Placed.mutexes_step {l : Label} {s s' : Stage} (h : s.kernel.Placed s.transit)
    (hmutexes : s.kernel.Objects Object.MutexSound) (hm : Move l s s') : s'.kernel.Objects Object.MutexSound := by
  intro x o' ho' hk
  obtain ⟨o, ho, hstep⟩ | ⟨-, hnew, -⟩ := hm.object ho' hk
  · exact hstep.mutexSound (h.nodup_waiting ho) (hmutexes x o ho (hstep.kind_eq ▸ hk))
  · exact hnew.mutexSound

theorem Orderly.after (h : k.Orderly) (hn : k.started.Nodup) (hbound : k.SparesLastId o) : (k.after o).Orderly := by
  obtain ⟨hcoherent, L, ⟨hplaced, hmutexes⟩, -⟩ := preserved_after
    (P := fun s => s.kernel.Placed s.transit ∧ s.kernel.Objects Object.MutexSound) h.coherent hn hbound
    (fun l s s' hc hfresh hm hs => ⟨hs.1.step hc hfresh hm, hs.1.mutexes_step hs.2 hm⟩) ⟨h.placed, h.mutexes⟩
  exact ⟨hcoherent, Places.mono hplaced (List.nil_subset L), hmutexes⟩

/-- Reachable kernels are orderly. -/
theorem orderly_run (config : KernelConfig) (memory : Memory) (operations : List Operation)
    (hids : (Kernel.new config memory).handedOut operations < 2 ^ 32 - 1) :
    ((Kernel.new config memory).run operations).Orderly :=
  (reachable_keeps hids (orderly_new config memory) fun _ _ _ hn hbound h => h.after hn hbound).2

end Kernel

/-! ### Calls on a mutex -/

namespace Operation

/-- The count of a call that locks a mutex. -/
def locks? (x : ObjectId) : Operation → Option Int32
  | syscall (.lockMutex y count ..) | syscall (.tryLockMutex y count) => if y = x then some count else none
  | _ => none

/-- The count of a call that unlocks a mutex. -/
def unlocks? (x : ObjectId) : Operation → Option Int32
  | syscall (.unlockMutex y count) => if y = x then some count else none
  | _ => none

/-- Whether an operation is a call that cancels all waits on a mutex. -/
def cancelsMutex (x : ObjectId) : Operation → Bool
  | syscall (.cancelMutex y ..) => y = x
  | _ => false

theorem unlocks?_of_locks? {x : ObjectId} {o : Operation} {count : Int32} (h : o.locks? x = some count) :
    o.unlocks? x = none := by
  unfold locks? at h
  split at h
  · rfl
  · rfl
  · cases h

theorem locks?_of_unlocks? {x : ObjectId} {o : Operation} {count : Int32} (h : o.unlocks? x = some count) :
    o.locks? x = none := by
  unfold unlocks? at h
  split at h
  · rfl
  · cases h

end Operation

namespace Kernel

variable {k : Kernel} {x : ObjectId} {m m' : Mutex} {o : Operation} {t : ThreadId} {count : Int32} {call : Syscall}
  {k' : Kernel} {m₁ : Mutex} {α : Type}

/-- The running thread makes a call on a mutex with a count, and the call is carried out. -/
structure Calls (k : Kernel) (x : ObjectId) (o : Operation) (count? : Option Int32) (t : ThreadId) (count : Int32) :
    Prop where
  current : k.current = some t
  count_eq : count? = some count
  completes : k.completes (.mutex, x) o = true

/-- What an operation does to a mutex, unless it cancels the waits on it. -/
inductive Turn (k : Kernel) (o : Operation) (m m' : Mutex) : Prop where
  | stay (hnot : k.completes (.mutex, m.id) o = false) (howner : m'.owner = m.owner)
      (hcount : m'.lockCount = m.lockCount)
  | take {t : ThreadId} {count : Int32} (hcall : k.Calls m.id o (o.locks? m.id) t count) (hfree : m.owner = none)
      (howner : m'.owner = some t) (hcount : m'.lockCount = count)
  | relock {t : ThreadId} {count : Int32} (hcall : k.Calls m.id o (o.locks? m.id) t count) (hown : m.owner = some t)
      (hrecursive : m.isRecursive = true) (howner : m'.owner = some t)
      (hcount : m'.lockCount.toInt = m.lockCount.toInt + count.toInt)
  | drop {t : ThreadId} {count : Int32} (hcall : k.Calls m.id o (o.unlocks? m.id) t count) (hown : m.owner = some t)
      (howner : m'.owner = some t) (hcount : m'.lockCount.toInt = m.lockCount.toInt - count.toInt)
  | free {t : ThreadId} (hcall : k.Calls m.id o (o.unlocks? m.id) t m.lockCount) (hown : m.owner = some t)
      (hempty : m.waiters = []) (howner : m'.owner = none) (hcount : m'.lockCount = 0)
  | hand {t : ThreadId} {w : Waiter Int32} (hcall : k.Calls m.id o (o.unlocks? m.id) t m.lockCount)
      (hown : m.owner = some t) (hfirst : m.waiters.head? = some w) (hother : w.thread ≠ t)
      (howner : m'.owner = some w.thread) (hcount : m'.lockCount = w.request)

/-- A lock that is carried out. -/
theorem turn_lock (h : m.Sound) (hcall : k.Calls m.id o (o.locks? m.id) t count)
    (hcheck : m.checkCount count = .ok ()) (hl : m.tryLock t count = .ok (.acquired m')) : k.Turn o m m' := by
  obtain ⟨hfree, rfl⟩ | ⟨hown, hrec, hmax, rfl⟩ := Mutex.tryLock_acquired hl
  · exact .take hcall hfree rfl rfl
  · exact .relock hcall hown hrec hown (Mutex.toInt_add h.nonneg (Mutex.pos_of_checkCount hcheck).1 hmax)

/-- An unlock that is carried out. -/
theorem turn_unlock (h : m.Sound) (hcall : k.Calls m.id o (o.unlocks? m.id) t count) (hpos : 0 < count)
    {next : Option ThreadId} (hu : m.unlock t count = .ok (m', next)) : k.Turn o m m' := by
  obtain ⟨hown, hle, ⟨-, -, rfl⟩ | ⟨hleft, hempty, -, rfl⟩ | ⟨hleft, w, rest, hq, -, rfl⟩⟩ := Mutex.unlock_ok hu
  · exact .drop hcall hown hown (Mutex.toInt_sub hpos hle)
  · have hall := Mutex.eq_of_sub_le hpos hle hleft
    subst hall
    exact .free hcall hown hempty rfl (Int32.sub_self _)
  · have hall := Mutex.eq_of_sub_le hpos hle hleft
    subst hall
    have hmem : w ∈ m.waiters := hq ▸ List.mem_cons_self ..
    refine .hand hcall hown (by rw [hq, List.head?_cons]) (fun heq => ?_) rfl rfl
    exact h.apart t hown (heq ▸ List.mem_map_of_mem hmem)

/-- A call with a final answer is carried out. -/
theorem completes_of_result {on : ObjectKind × ObjectId} {a : Answer} (hcall : call.object? = some on)
    (hresult : (k.perform call).result = .ok a) (hfinal : a.isFinal = true) :
    k.completes on (.syscall call) = true := by
  rw [completes_eq hcall, Reply.isCarriedOut, hresult]
  exact hfinal

/-- A mutex that has been stored, after further work on threads. -/
theorem eq_of_put (hid : m₁.id = x) (hthreads : OnlyThreads (k.put (.mutex m₁)) k')
    (hm' : k'.objects.mutex? x = some m') : m' = m₁ :=
  Object.mutex.inj (object_of_put hid hthreads (ObjectTable.mutex?_eq_some.mp hm') nofun)

/-- A call that is refused, or has to wait. -/
theorem turn_stay (hres : ∀ a, (k.perform call).result = .ok a → a.isFinal = false)
    (howner : m'.owner = m.owner) (hcount : m'.lockCount = m.lockCount) : k.Turn (.syscall call) m m' :=
  .stay (not_completes_of_result hres) howner hcount

/-- A refused call is no turn of the mutex. -/
theorem turn_refuse {e : KernelError} {f : α → Answer}
    (hm : k.objects.mutex? x = some m) (hquiet : Quiet k k') (hreply : k.perform call = (k'.refuse e).map f)
    (hm' : (k.perform call).kernel.objects.mutex? x = some m') : k.Turn (.syscall call) m m' := by
  rw [hreply] at hm'
  replace hm' : k'.objects.mutex? x = some m' := hm'
  rw [hquiet.objects, hm, Option.some.injEq] at hm'
  subst hm'
  refine turn_stay (fun a ha => ?_) rfl rfl
  rw [hreply] at ha
  cases ha

theorem eq_of_attemptLock {m₀ : Mutex} {attempt : LockAttempt} (hm : k.objects.mutex? x = some m)
    (hattempt : k.attemptLock x count = .ok (m₀, attempt)) : m = m₀ := by
  obtain ⟨thread, hget, -⟩ := attemptLock_eq_ok hattempt
  rw [ObjectTable.mutex?_eq_some, hget, Option.some.injEq, Object.mutex.injEq] at hm
  exact hm.symm

/-- A lock that is taken is a turn of the mutex. -/
theorem turn_acquired {f : α → Answer} {a : α} (h : m.Sound)
    (hattempt : k.attemptLock m.id count = .ok (m, .acquired m₁)) (hcall : call.object? = some (.mutex, m.id))
    (hlocks : (Operation.syscall call).locks? m.id = some count) (hfinal : (f a).isFinal = true)
    (hreply : k.perform call = ((k.put (.mutex m₁)).done a).map f)
    (hm' : (k.perform call).kernel.objects.mutex? m.id = some m') : k.Turn (.syscall call) m m' := by
  obtain ⟨thread, -, hcheck, hcurrent, hl⟩ := attemptLock_eq_ok hattempt
  have hid : m₁.id = m.id := (Object.Change.lock hcheck hl).id_eq
  have hcompletes : k.completes (.mutex, m.id) (.syscall call) = true :=
    completes_of_result hcall (a := f a) (by rw [hreply]; rfl) hfinal
  rw [hreply] at hm'
  have heq : m' = m₁ := eq_of_put hid (.of_objects rfl rfl rfl rfl) hm'
  rw [heq]
  exact turn_lock h ⟨hcurrent, hlocks, hcompletes⟩ hcheck hl

/-- Locking is a turn of the mutex. -/
theorem turn_lockMutex (hm : k.objects.mutex? m.id = some m) (h : m.Sound) (count : Int32) (timeoutAddress : UInt32)
    (callbacks : Bool)
    (hm' : (k.after (.syscall (.lockMutex m.id count timeoutAddress callbacks))).objects.mutex? m.id = some m') :
    k.Turn (.syscall (.lockMutex m.id count timeoutAddress callbacks)) m m' := by
  have hperform : k.perform (.lockMutex m.id count timeoutAddress callbacks) =
    (k.lockMutex m.id count timeoutAddress callbacks).map .outcome := rfl
  unfold lockMutex at hperform
  cases hattempt : k.attemptLock m.id count with
  | error e =>
    rw [hattempt] at hperform
    exact turn_refuse hm (.refl k) hperform hm'
  | ok found =>
    obtain ⟨m₀, attempt⟩ := found
    obtain rfl := eq_of_attemptLock hm hattempt
    rw [hattempt] at hperform
    cases attempt with
    | acquired m₁ => exact turn_acquired h hattempt rfl (if_pos rfl) rfl hperform hm'
    | contended =>
      dsimp only at hperform
      obtain ⟨k', e, hquiet, -, hblock⟩ | ⟨thread, timeout, -, -, -, hblock⟩ := block_cases k _ count _ <;>
        rw [hblock] at hperform
      · exact turn_refuse hm hquiet hperform hm'
      · have hm' : (k.perform (.lockMutex m.id count timeoutAddress callbacks)).kernel.objects.mutex? m.id = some m' := hm'
        rw [hperform] at hm'
        have heq : m' = m.enqueue ⟨thread.id, thread.priority, count⟩ := eq_of_put rfl (.of_objects rfl rfl rfl rfl) hm'
        rw [heq]
        refine turn_stay (fun a ha => ?_) rfl rfl
        rw [hperform] at ha
        cases ha
        rfl

/-- Trying to lock is a turn of the mutex. -/
theorem turn_tryLockMutex (hm : k.objects.mutex? m.id = some m) (h : m.Sound) (count : Int32)
    (hm' : (k.after (.syscall (.tryLockMutex m.id count))).objects.mutex? m.id = some m') :
    k.Turn (.syscall (.tryLockMutex m.id count)) m m' := by
  have hperform : k.perform (.tryLockMutex m.id count) = (k.tryLockMutex m.id count).map fun _ => .done := rfl
  unfold tryLockMutex at hperform
  cases hattempt : k.attemptLock m.id count with
  | error e =>
    rw [hattempt] at hperform
    exact turn_refuse hm (.refl k) hperform hm'
  | ok found =>
    obtain ⟨m₀, attempt⟩ := found
    obtain rfl := eq_of_attemptLock hm hattempt
    rw [hattempt] at hperform
    cases attempt with
    | acquired m₁ => exact turn_acquired h hattempt rfl (if_pos rfl) rfl hperform hm'
    | contended => exact turn_refuse hm (.refl k) hperform hm'

/-- Unlocking is a turn of the mutex; the last unlock hands it over. -/
theorem turn_unlockMutex (hm : k.objects.mutex? m.id = some m) (h : m.Sound) (count : Int32)
    (hm' : (k.after (.syscall (.unlockMutex m.id count))).objects.mutex? m.id = some m') :
    k.Turn (.syscall (.unlockMutex m.id count)) m m' := by
  have hperform : k.perform (.unlockMutex m.id count) = (k.unlockMutex m.id count).map fun _ => .done := rfl
  unfold unlockMutex at hperform
  rw [hm] at hperform
  dsimp only at hperform
  by_cases hcount : count ≤ 0
  · rw [if_pos hcount] at hperform
    exact turn_refuse hm (.refl k) hperform hm'
  rw [if_neg hcount] at hperform
  cases hcurrent : k.currentId with
  | error e =>
    rw [hcurrent] at hperform
    exact turn_refuse hm (.refl k) hperform hm'
  | ok thread =>
    rw [hcurrent] at hperform
    dsimp only at hperform
    cases hu : m.unlock thread count with
    | error e =>
      rw [hu] at hperform
      exact turn_refuse hm (.refl k) hperform hm'
    | ok left =>
      obtain ⟨m₁, next⟩ := left
      have hpos := Int32.not_le.mp hcount
      have hid : m₁.id = m.id := (Object.Change.unlock hpos hu).id_eq
      rw [hu] at hperform
      -- Who takes over is woken, which is the mutex's business no more.
      obtain ⟨k', hthreads, hreply⟩ : ∃ k', OnlyThreads (k.put (.mutex m₁)) k' ∧
          k.perform (.unlockMutex m.id count) = (k'.done ()).map fun _ => .done := by
        cases next with
        | none => exact ⟨_, .of_objects rfl rfl rfl rfl, hperform⟩
        | some next =>
          have hnote : OnlyThreads (k.put (.mutex m₁)) ((k.put (.mutex m₁)).note (.mutexHanded m.id next)) :=
            .of_objects rfl rfl rfl rfl
          exact ⟨_, hnote.trans (onlyThreads_wake ..), hperform⟩
      have hcompletes : k.completes (.mutex, m.id) (.syscall (.unlockMutex m.id count)) = true :=
        completes_of_result rfl (a := .done) (by rw [hreply]; rfl) rfl
      replace hm' : (k.perform (.unlockMutex m.id count)).kernel.objects.mutex? m.id = some m' := hm'
      rw [hreply] at hm'
      have heq : m' = m₁ := eq_of_put hid hthreads hm'
      rw [heq]
      exact turn_unlock h ⟨currentId_eq_ok.mp hcurrent, if_pos rfl, hcompletes⟩ hpos hu

end Kernel

/-- Who gives up waiting for a mutex changes nothing about who owns it. -/
theorem Object.Step.owner_eq {l : Label} {o : Object} {m' : Mutex} (h : o.Step l (.mutex m'))
    (hl : ¬ l.Changes .mutex m'.id) : ∃ m, o = .mutex m ∧ m'.owner = m.owner ∧ m'.lockCount = m.lockCount := by
  have hkind := h.kind_eq
  obtain ⟨m, rfl⟩ : ∃ m, o = .mutex m := by
    cases o <;> first | exact ⟨_, rfl⟩ | cases hkind
  refine ⟨m, rfl, ?_⟩
  generalize hm' : Object.mutex m' = o' at h
  cases h with
  | same =>
    cases hm'
    exact ⟨rfl, rfl⟩
  | change hlabel hc =>
    subst hm' hlabel
    exact absurd ⟨rfl, hc.id_eq.symm⟩ hl
  | enqueue hlabel hq =>
    subst hm' hlabel
    exact absurd ⟨rfl, hq.id_eq.symm⟩ hl
  | leave =>
    cases hm'
    exact ⟨rfl, rfl⟩

namespace Kernel

variable {k : Kernel} {x : ObjectId} {m m' : Mutex} {o : Operation} {t : ThreadId} {count : Int32}
  {count? : Option Int32} {operations : List Operation}

/-- An operation on other objects leaves a mutex to its owner. -/
theorem turn_other (hm : k.objects.mutex? m.id = some m) (hbelow : k.IdsBelow) (hn : k.started.Nodup)
    (ho : o.object? ≠ some (.mutex, m.id)) (hm' : (k.after o).objects.mutex? m.id = some m') : k.Turn o m m' := by
  have hget := ObjectTable.mutex?_eq_some.mp hm
  have hsame : m'.owner = m.owner ∧ m'.lockCount = m.lockCount := by
    refine object_after hn (ObjectTable.mutex?_eq_some.mp hm') nofun
      (R := fun o₁ => ∀ m₁, o₁ = .mutex m₁ → m₁.owner = m.owner ∧ m₁.lockCount = m.lockCount) ?_ ?_ ?_ m' rfl
    · rintro _ hm₁ - m₁ rfl
      cases hget.symm.trans hm₁
      exact ⟨rfl, rfl⟩
    · -- The id of a mutex that exists is not handed out.
      intro _ _ _ hnext
      cases hget.symm.trans (hnext ▸ hbelow.fresh)
    · rintro l o₁ _ hl - hid hstep hs m₂ rfl
      have hspares : ¬ l.Changes .mutex m₂.id := by
        rw [show m₂.id = m.id from hid]
        exact hl.not_changes ho nofun nofun
      obtain ⟨m₁, rfl, howner, hcount⟩ := hstep.owner_eq hspares
      obtain ⟨howner₁, hcount₁⟩ := hs m₁ rfl
      exact ⟨howner.trans howner₁, hcount.trans hcount₁⟩
  exact .stay (not_completes_of_object? ho) hsame.1 hsame.2

/-- **Whatever an operation does to a mutex is one of its turns**, unless the operation cancels the waits on it. -/
theorem turn_after (h : k.Orderly) (hn : k.started.Nodup) (hcancel : o.cancelsMutex x = false)
    (hm : k.objects.mutex? x = some m) (hm' : (k.after o).objects.mutex? x = some m') : k.Turn o m m' := by
  have hsound := h.sound hm
  have hid : m.id = x := ObjectTable.id_of_get? (ObjectTable.mutex?_eq_some.mp hm)
  subst hid
  by_cases ho : o.object? = some (.mutex, m.id)
  · cases o with
    | syscall call =>
      cases call with
      | lockMutex y count timeoutAddress callbacks =>
        cases ho
        exact turn_lockMutex hm hsound count timeoutAddress callbacks hm'
      | tryLockMutex y count =>
        cases ho
        exact turn_tryLockMutex hm hsound count hm'
      | unlockMutex y count =>
        cases ho
        exact turn_unlockMutex hm hsound count hm'
      | cancelMutex y count waitingAddress =>
        cases ho
        exact absurd rfl (of_decide_eq_false hcancel)
      | _ => cases ho
    | _ => cases ho
  · exact turn_other hm h.coherent.2 hn ho hm'

/-! ### What a thread holds -/

/-- The thread that owns a mutex. -/
def ownerOf? (k : Kernel) (x : ObjectId) : Option ThreadId := (k.objects.mutex? x).bind (·.owner)

/-- The count of an operation, if it is a call of a thread on a mutex that is carried out. -/
def carried (k : Kernel) (x : ObjectId) (t : ThreadId) (o : Operation) (count? : Option Int32) : Int :=
  if k.current = some t ∧ k.completes (.mutex, x) o = true then (count?.map Int32.toInt).getD 0 else 0

/-- The counts, added up, of a thread's calls on a mutex that are carried out. -/
def tally (k : Kernel) (x : ObjectId) (t : ThreadId) (count? : Operation → Option Int32) : List Operation → Int
  | [] => 0
  | o :: rest => k.carried x t o (count? o) + (k.after o).tally x t count? rest

theorem carried_of_not (h : k.completes (.mutex, x) o = false) : k.carried x t o count? = 0 :=
  if_neg fun hc => Bool.noConfusion (h.symm.trans hc.2)

theorem Calls.carried (h : k.Calls x o count? t count) : k.carried x t o count? = count.toInt := by
  unfold Kernel.carried
  rw [if_pos ⟨h.current, h.completes⟩, h.count_eq]
  rfl

/-- While it owns a mutex, a thread holds it as often as it has locked it less what it has unlocked. -/
theorem Turn.count_eq (h : k.Turn o m m') (hown : m.owner = some t) (hown' : m'.owner = some t) :
    m'.lockCount.toInt =
      m.lockCount.toInt + k.carried m.id t o (o.locks? m.id) - k.carried m.id t o (o.unlocks? m.id) := by
  cases h with
  | stay hnot _ hcount =>
    rw [carried_of_not hnot, carried_of_not hnot, hcount]
    omega
  | take _ hfree =>
    rw [hfree] at hown
    cases hown
  | @relock t' count hcall howned _ _ hcount =>
    rw [howned, Option.some.injEq] at hown
    subst hown
    have hno : k.carried m.id t' o (o.unlocks? m.id) = 0 := by
      rw [Operation.unlocks?_of_locks? hcall.count_eq]
      exact ite_self _
    rw [hcall.carried, hno, hcount]
    omega
  | @drop t' count hcall howned _ hcount =>
    rw [howned, Option.some.injEq] at hown
    subst hown
    have hno : k.carried m.id t' o (o.locks? m.id) = 0 := by
      rw [Operation.locks?_of_unlocks? hcall.count_eq]
      exact ite_self _
    rw [hcall.carried, hno, hcount]
    omega
  | free _ _ _ howner =>
    rw [howner] at hown'
    cases hown'
  | hand hcall howned _ hother howner =>
    rw [howned, Option.some.injEq] at hown
    rw [howner, Option.some.injEq] at hown'
    exact absurd (hown'.trans hown.symm) hother

/-- What an operation does to a mutex that it leaves in place is one of its turns. -/
def Turns (k : Kernel) (x : ObjectId) (o : Operation) : Prop :=
  ∀ m m', k.objects.mutex? x = some m → (k.after o).objects.mutex? x = some m' → k.Turn o m m'

/-- A thread owns a mutex before, between and after operations. -/
def OwnsThroughout (k : Kernel) (x : ObjectId) (t : ThreadId) (operations : List Operation) : Prop :=
  k.Along (fun k _ => k.ownerOf? x = some t) operations ∧ (k.run operations).ownerOf? x = some t

instance (k : Kernel) (x : ObjectId) (t : ThreadId) (operations : List Operation) :
    Decidable (k.OwnsThroughout x t operations) :=
  inferInstanceAs (Decidable (_ ∧ _))

theorem ownerOf?_eq_some : k.ownerOf? x = some t ↔ ∃ m, k.objects.mutex? x = some m ∧ m.owner = some t :=
  Option.bind_eq_some_iff

theorem OwnsThroughout.ownerOf?_eq (h : k.OwnsThroughout x t operations) : k.ownerOf? x = some t := by
  cases operations with
  | nil => exact h.2
  | cons o rest => exact h.1.1

/-- **What a thread holds of a mutex is what it has got, and locked, less what it has unlocked since.** -/
theorem OwnsThroughout.count_eq (h : k.OwnsThroughout x t operations)
    (hturns : k.Along (fun k o => k.Turns x o) operations) (hm : k.objects.mutex? x = some m)
    (hm' : (k.run operations).objects.mutex? x = some m') : m'.lockCount.toInt =
      m.lockCount.toInt + k.tally x t (·.locks? x) operations - k.tally x t (·.unlocks? x) operations := by
  induction operations generalizing k m with
  | nil =>
    rw [run_nil, hm, Option.some.injEq] at hm'
    rw [hm']
    simp [tally]
  | cons o rest ih =>
    have hrest : (k.after o).OwnsThroughout x t rest := ⟨h.1.2, h.2⟩
    obtain ⟨m₀, hm₀, hown⟩ := ownerOf?_eq_some.mp h.ownerOf?_eq
    obtain ⟨m₁, hm₁, hown₁⟩ := ownerOf?_eq_some.mp hrest.ownerOf?_eq
    obtain rfl : m = m₀ := Option.some.inj (hm.symm.trans hm₀)
    have hid : m.id = x := ObjectTable.id_of_get? (ObjectTable.mutex?_eq_some.mp hm)
    have hstep := (hturns.1 m m₁ hm hm₁).count_eq hown hown₁
    have hlater := ih hrest hturns.2 hm₁ hm'
    rw [hid] at hstep
    unfold tally
    omega

/-! ### Runs -/

/-- **Mutual exclusion, and what it rests on.** In every reachable state every mutex is sound. Over operations that do
not cancel the waits on it, a mutex changes hands and is held more or less often by its turns alone; and a thread that
owns it throughout holds it as often as it did, plus what it has locked, less what it has unlocked. -/
theorem mutexTurns_run (config : KernelConfig) (memory : Memory) (before stretch : List Operation) (x : ObjectId)
    (hids : (Kernel.new config memory).handedOut (before ++ stretch) < 2 ^ 32 - 1) :
    (∀ m, ((Kernel.new config memory).run (before ++ stretch)).objects.mutex? x = some m → m.Sound) ∧
      ((∀ o ∈ stretch, o.cancelsMutex x = false) →
        ((Kernel.new config memory).run before).Along (fun k o => k.Turns x o) stretch ∧
        ∀ t m m', ((Kernel.new config memory).run before).OwnsThroughout x t stretch →
          ((Kernel.new config memory).run before).objects.mutex? x = some m →
          ((Kernel.new config memory).run (before ++ stretch)).objects.mutex? x = some m' →
          m'.lockCount.toInt = m.lockCount.toInt +
            ((Kernel.new config memory).run before).tally x t (·.locks? x) stretch -
            ((Kernel.new config memory).run before).tally x t (·.unlocks? x) stretch) := by
  refine ⟨fun m hm => (orderly_run config memory _ hids).sound hm, fun hcancel => ?_⟩
  have hturns : ((Kernel.new config memory).run before).Along (fun k o => k.Turns x o) stretch := by
    refine along_of_prefixes fun first o rest heq m m' hm hm' => ?_
    rw [← run_append] at hm hm' ⊢
    have hle := handedOut_le_append (Kernel.new config memory) (before ++ first) (o :: rest)
    rw [List.append_assoc, ← heq] at hle
    have hn : ((Kernel.new config memory).run (before ++ first)).started.Nodup :=
      run_keeps (P := fun k => k.started.Nodup) (fun k o hn _ => nodup_started_after o hn) _
        (nodup_started_new config memory) (nodup_started_new config memory)
    have ho : o ∈ stretch := heq ▸ List.mem_append_right first (List.mem_cons_self ..)
    exact turn_after (orderly_run config memory _ (by omega)) hn (hcancel o ho) hm hm'
  refine ⟨hturns, fun t m m' howns hm hm' => ?_⟩
  rw [run_append] at hm'
  exact howns.count_eq hturns hm hm'

/-- A thread locks a recursive mutex twice. -/
def lockedTwice : List Operation :=
  [.syscall (.createThread "main" 0x08900000 32 0x1000 0), .syscall (.createThread "rival" 0x08900000 33 0x1000 0),
    .syscall (.startThread 1 0 0), .syscall (.startThread 2 0 0), .dispatch,
    .syscall (.createMutex "state" 0x200 0), .syscall (.lockMutex 3 2 0 false)]

/-- The owner locks it once more and sleeps, another thread tries to lock it and then waits for it, and the owner gives
up two of its holds. -/
def contention : List Operation :=
  [.syscall (.tryLockMutex 3 1), .delayThread 100 false, .dispatch, .syscall (.tryLockMutex 3 1),
    .syscall (.lockMutex 3 4 0 false), .advanceClock 100, .dispatch, .syscall (.unlockMutex 3 2)]

/-- The owner has got 2 holds, locked 1 and unlocked 2; with the last it gives the mutex away. -/
theorem mutexTurns_run_contention : ∃ m m',
    (Kernel.new {} {}).handedOut (lockedTwice ++ contention) < 2 ^ 32 - 1 ∧
      (∀ o ∈ contention, o.cancelsMutex 3 = false) ∧
      ((Kernel.new {} {}).run lockedTwice).OwnsThroughout 3 1 contention ∧
      ((Kernel.new {} {}).run lockedTwice).objects.mutex? 3 = some m ∧ m.lockCount = 2 ∧
      ((Kernel.new {} {}).run (lockedTwice ++ contention)).objects.mutex? 3 = some m' ∧
      m'.waiters = [⟨2, 33, 4⟩] ∧ m'.Sound ∧ m'.lockCount.toInt = m.lockCount.toInt + 1 - 2 ∧
      ((Kernel.new {} {}).run lockedTwice).Along (fun k o => k.Turns 3 o) contention ∧
      ((Kernel.new {} {}).run (lockedTwice ++ contention ++ [.syscall (.unlockMutex 3 1)])).ownerOf? 3 = some 2 := by
  have hids : (Kernel.new {} {}).handedOut (lockedTwice ++ contention) < 2 ^ 32 - 1 := handedOut_lt (by decide)
  have hcancel : ∀ o ∈ contention, o.cancelsMutex 3 = false := by decide
  have howns : ((Kernel.new {} {}).run lockedTwice).OwnsThroughout 3 1 contention := by decide +kernel
  have hlocked : ((Kernel.new {} {}).run lockedTwice).tally 3 1 (·.locks? 3) contention = 1 := by decide +kernel
  have hunlocked : ((Kernel.new {} {}).run lockedTwice).tally 3 1 (·.unlocks? 3) contention = 2 := by decide +kernel
  obtain ⟨m, hm⟩ := Option.isSome_iff_exists.mp
    (show (((Kernel.new {} {}).run lockedTwice).objects.mutex? 3).isSome by decide +kernel)
  obtain ⟨m', hm'⟩ := Option.isSome_iff_exists.mp
    (show (((Kernel.new {} {}).run (lockedTwice ++ contention)).objects.mutex? 3).isSome by decide +kernel)
  have hstart : (((Kernel.new {} {}).run lockedTwice).objects.mutex? 3).map Mutex.lockCount = some 2 := by
    decide +kernel
  have hqueue : (((Kernel.new {} {}).run (lockedTwice ++ contention)).objects.mutex? 3).map Mutex.waiters =
      some [⟨2, 33, 4⟩] := by decide +kernel
  obtain ⟨hsound, hstretch⟩ := mutexTurns_run {} {} lockedTwice contention 3 hids
  obtain ⟨hturns, hcount⟩ := hstretch hcancel
  have hheld := hcount 1 m m' howns hm hm'
  rw [hlocked, hunlocked] at hheld
  rw [hm] at hstart
  rw [hm'] at hqueue
  exact ⟨m, m', hids, hcancel, howns, hm, Option.some.inj hstart, hm', Option.some.inj hqueue, hsound m' hm', hheld,
    hturns, by decide +kernel⟩

end Kernel
end GuestKernel
