/-
# Nobody sleeps over a pattern that satisfies it

A thread is queued on an event flag because the pattern does not satisfy it, and from then on bits come in by
`setEventFlag` alone, which looks at the whole queue. It looks at each waiter once, from first to last, and a waiter that
is let go may clear bits on its way. That can only make the pattern worse for those who were passed over
(`EventRequest.matched_mono`), so one pass is enough: no waiter is ever left that the pattern satisfies
(`EventFlag.Sound`).

What a waiter sees is the pattern that those before it leave (`EventFlag.sightings`). Whom it satisfies is let go, in
the order of the queue, and finds in guest memory the pattern that it saw (`Kernel.LetsGo`).

Source: specification, 4.6.
-/

import GuestKernel.Proofs.QueuePlaces
import GuestKernel.Proofs.Waking

namespace GuestKernel

/-! ### Patterns -/

namespace EventRequest

variable {r : EventRequest} {p q : UInt32}

/-- More bits satisfy whoever fewer bits satisfy. -/
theorem matched_mono (hpq : p &&& q = p) (h : r.matched p = true) : r.matched q = true := by
  unfold matched at h ⊢
  split at h
  · next hmode =>
    rw [if_pos hmode]
    rw [bne_iff_ne, ne_eq] at h ⊢
    intro hq
    refine h ?_
    rw [← hpq, UInt32.and_assoc, hq, UInt32.and_zero]
  · next hmode =>
    rw [if_neg hmode]
    rw [beq_iff_eq] at h ⊢
    calc q &&& r.bits = q &&& (p &&& r.bits) := by rw [h]
      _ = (p &&& q) &&& r.bits := by rw [← UInt32.and_assoc, UInt32.and_comm q p]
      _ = r.bits := by rw [hpq, h]

/-- A request clears bits and sets none. -/
theorem cleared_and (r : EventRequest) (p : UInt32) : r.cleared p &&& p = r.cleared p := by
  unfold cleared
  split
  · exact UInt32.zero_and
  · split
    · rw [UInt32.and_assoc, UInt32.and_comm (~~~r.bits), ← UInt32.and_assoc, UInt32.and_self]
    · exact UInt32.and_self

theorem check_eq_ok : r.check = .ok () ↔ r.bits ≠ 0 ∧ r.mode &&& ~~~validMode = 0 := by
  unfold check
  by_cases hbits : r.bits = 0
  · simp [hbits]
  · by_cases hmode : r.mode &&& ~~~validMode = 0
    · simp [hbits, hmode]
    · simp [hbits, hmode]

end EventRequest

namespace EventFlag

variable {f : EventFlag} {p : UInt32} {q : WaitQueue EventRequest}

theorem and_trans {p₁ p₂ p₃ : UInt32} (h : p₁ &&& p₂ = p₁) (h' : p₂ &&& p₃ = p₂) : p₁ &&& p₃ = p₁ := by
  rw [← h, UInt32.and_assoc, h']

/-- Letting waiters go clears bits and sets none. -/
theorem serve_and (p : UInt32) (q : WaitQueue EventRequest) : (serve p q).1 &&& p = (serve p q).1 := by
  induction q generalizing p with
  | nil => exact UInt32.and_self
  | cons w rest ih =>
    unfold serve
    split
    · exact and_trans (ih (w.request.cleared p)) (w.request.cleared_and p)
    · exact ih p

/-- **One pass is enough**: whoever is passed over is not satisfied by what the pass leaves. -/
theorem serve_unmet (p : UInt32) (q : WaitQueue EventRequest) :
    ∀ w ∈ (serve p q).2.1, w.request.matched (serve p q).1 = false := by
  induction q generalizing p with
  | nil => exact nofun
  | cons w₀ rest ih =>
    unfold serve
    split
    · exact ih (w₀.request.cleared p)
    · next hunmet =>
      intro w hw
      rcases List.mem_cons.mp hw with rfl | hw
      · exact Bool.eq_false_iff.mpr fun hm => hunmet (EventRequest.matched_mono (serve_and p rest) hm)
      · exact ih p w hw

/-- Those that are not served keep their order. -/
theorem serve_sublist (p : UInt32) (q : WaitQueue EventRequest) : (serve p q).2.1.Sublist q := by
  induction q generalizing p with
  | nil => exact List.Sublist.refl _
  | cons w rest ih =>
    unfold serve
    split
    · exact (ih (w.request.cleared p)).cons w
    · exact (ih p).cons_cons w

/-! ### A flag at any time -/

/-- What holds of an event flag whatever has been done with it. -/
structure Sound (f : EventFlag) : Prop where
  unmet : ∀ w ∈ f.waiters, w.request.matched f.pattern = false
  asks : ∀ w ∈ f.waiters, w.request.bits ≠ 0 ∧ w.request.mode &&& ~~~EventRequest.validMode = 0
  single : f.attributes &&& attributeMultiple = 0 → f.waiters.length ≤ 1

namespace Sound

/-- Fewer bits and fewer waiters. -/
theorem shrink (h : f.Sound) (hp : p &&& f.pattern = p) (hq : q.Sublist f.waiters) :
    Sound { f with pattern := p, waiters := q } := by
  refine ⟨fun w hw => ?_, fun w hw => h.asks w (hq.subset hw), fun hm => hq.length_le.trans (h.single hm)⟩
  exact Bool.eq_false_iff.mpr fun hmatch =>
    Bool.false_ne_true ((h.unmet w (hq.subset hw)).symm.trans (EventRequest.matched_mono hp hmatch))

theorem raise (h : f.Sound) (bits : UInt32) : (f.raise bits).1.Sound := by
  have hsub := serve_sublist (f.pattern ||| bits) f.waiters
  exact ⟨serve_unmet _ _, fun w hw => h.asks w (hsub.subset hw), fun hm => hsub.length_le.trans (h.single hm)⟩

theorem empty (f : EventFlag) (p : UInt32) : Sound { f with pattern := p, waiters := [] } :=
  ⟨nofun, nofun, fun _ => Nat.zero_le 1⟩

/-- Whoever is queued asks for something that is not there. -/
theorem enqueue (h : f.Sound) {thread : ThreadId} {priority : UInt32} {r : EventRequest} (hr : r.check = .ok ())
    (hfree : f.isTaken = false) (hunmet : r.matched f.pattern = false) :
    (f.enqueue ⟨thread, priority, r⟩).Sound := by
  have hperm := WaitQueue.perm_enqueue f.attributes ⟨thread, priority, r⟩ f.waiters
  refine ⟨fun w hw => ?_, fun w hw => ?_, fun hm => ?_⟩
  · rcases List.mem_cons.mp (hperm.mem_iff.mp hw) with rfl | hw
    · exact hunmet
    · exact h.unmet w hw
  · rcases List.mem_cons.mp (hperm.mem_iff.mp hw) with rfl | hw
    · exact EventRequest.check_eq_ok.mp hr
    · exact h.asks w hw
  · have hempty : f.waiters = [] := by
      unfold isTaken at hfree
      rw [show f.attributes &&& attributeMultiple = 0 from hm] at hfree
      simpa using hfree
    show (f.waiters.enqueue f.attributes _).length ≤ 1
    rw [hperm.length_eq, hempty]
    exact Nat.le_refl 1

end Sound
end EventFlag

namespace Object

/-- An event flag is sound. -/
def FlagSound : Object → Prop
  | eventFlag f => f.Sound
  | _ => True

theorem IsNew.flagSound {o : Object} (h : o.IsNew) : o.FlagSound := by
  cases o with
  | eventFlag f =>
    have hsound := EventFlag.Sound.empty f f.pattern
    rwa [← show f.waiters = [] from h] at hsound
  | _ => trivial

/-- A step keeps an event flag sound. -/
theorem Step.flagSound {l : Label} {o o' : Object} (h : o.Step l o') (hsound : o.FlagSound) : o'.FlagSound := by
  cases h with
  | same => exact hsound
  | change _ hc =>
    cases hc with
    | consume => exact EventFlag.Sound.shrink hsound (EventRequest.cleared_and _ _) (List.Sublist.refl _)
    | raise f bits => exact EventFlag.Sound.raise hsound bits
    | keep f bits =>
      refine EventFlag.Sound.shrink hsound ?_ (List.Sublist.refl _)
      rw [UInt32.and_assoc, UInt32.and_comm bits, ← UInt32.and_assoc, UInt32.and_self]
    | resetFlag f pattern => exact EventFlag.Sound.empty f pattern
    | _ => trivial
  | enqueue _ hq =>
    cases hq with
    | eventFlag _ _ _ _ _ hr hfree hunmet => exact EventFlag.Sound.enqueue hsound hr hfree hunmet
    | _ => trivial
  | leave =>
    cases o with
    | eventFlag f => exact EventFlag.Sound.shrink hsound UInt32.and_self List.eraseP_sublist
    | messagePipe p =>
      unfold removeWaiter
      dsimp only
      split <;> trivial
    | _ => trivial

end Object

/-! ### The pass -/

namespace EventFlag

variable {f : EventFlag} {p : UInt32} {q : WaitQueue EventRequest}

/-- The pattern that a waiter leaves to the next: it clears bits if it is satisfied. -/
def leave (p : UInt32) (w : Waiter EventRequest) : UInt32 := if w.request.matched p then w.request.cleared p else p

/-- The waiters of a queue, each with the pattern that those before it leave. -/
def sightings (p : UInt32) (q : WaitQueue EventRequest) : List (Waiter EventRequest × UInt32) :=
  q.zip (q.scanl leave p)

/-- The waiters that the pattern they see satisfies. -/
def satisfied (p : UInt32) (q : WaitQueue EventRequest) : List (Waiter EventRequest × UInt32) :=
  (sightings p q).filter fun e => e.1.request.matched e.2

/-- The waiters that the pattern they see does not satisfy. -/
def passedOver (p : UInt32) (q : WaitQueue EventRequest) : WaitQueue EventRequest :=
  ((sightings p q).filter fun e => !e.1.request.matched e.2).map (·.1)

/-- The flag after a pass: the pattern is what all waiters leave, and those passed over stay. -/
def passed (f : EventFlag) (p : UInt32) : EventFlag :=
  { f with pattern := f.waiters.foldl leave p, waiters := passedOver p f.waiters }

/-- What a waiter is told that has seen a pattern. -/
def grant (e : Waiter EventRequest × UInt32) : EventGrant := ⟨e.1.thread, e.1.request.outAddress, e.2⟩

theorem sightings_cons (p : UInt32) (w : Waiter EventRequest) (q : WaitQueue EventRequest) :
    sightings p (w :: q) = (w, p) :: sightings (leave p w) q := by
  unfold sightings
  rw [List.scanl_cons, List.zip_cons_cons]

/-- **The pass lets go exactly those whom the pattern left by those before satisfies**, in the order of the queue. -/
theorem serve_eq (p : UInt32) (q : WaitQueue EventRequest) :
    serve p q = (q.foldl leave p, passedOver p q, (satisfied p q).map grant) := by
  induction q generalizing p with
  | nil => rfl
  | cons w rest ih =>
    unfold serve
    unfold passedOver satisfied at ih ⊢
    rw [sightings_cons, List.foldl_cons]
    by_cases hm : w.request.matched p = true
    · have hleave : leave p w = w.request.cleared p := if_pos hm
      simp [hm, hleave, ih, grant]
    · have hleave : leave p w = p := if_neg hm
      simp [hm, hleave, ih]

theorem threads_sightings (p : UInt32) (q : WaitQueue EventRequest) :
    (sightings p q).map (·.1.thread) = q.threads := by
  induction q generalizing p with
  | nil => rfl
  | cons w rest ih => rw [sightings_cons, List.map_cons, ih, WaitQueue.threads, WaitQueue.threads, List.map_cons]

/-- Whoever is satisfied stands in the queue. -/
theorem threads_satisfied (p : UInt32) (q : WaitQueue EventRequest) :
    ((satisfied p q).map (·.1.thread)).Sublist q.threads := by
  rw [← threads_sightings p q]
  exact List.filter_sublist.map _

end EventFlag

namespace Kernel

variable {k : Kernel} {x : ObjectId} {f : EventFlag} {L : List ThreadId}

/-! ### Letting waiters go -/

/-- A waiter is told the pattern it saw, and woken. -/
theorem grantEvent_eq (k : Kernel) (flag : ObjectId) (g : EventGrant) : ∃ k₁, Quiet k k₁ ∧
    k₁.memory = k.memory.tell g.outAddress g.seen ∧ k.grantEvent flag g = k₁.wake g.thread 0 := by
  unfold grantEvent Memory.tell
  cases k.memory.writeOptional g.outAddress g.seen with
  | ok memory => exact ⟨_, Quiet.memory k memory, rfl, rfl⟩
  | error f => exact ⟨_, (Quiet.note k rfl).trans (Quiet.note _ rfl), rfl, rfl⟩

/-- Only the thread that is granted its events is woken. -/
theorem thread?_grantEvent (k : Kernel) (flag : ObjectId) (g : EventGrant) (id : ThreadId) :
    (k.grantEvent flag g).thread? id =
      if id = g.thread then (k.thread? id).map (·.woken 0) else k.thread? id := by
  obtain ⟨k₁, hquiet, -, heq⟩ := grantEvent_eq k flag g
  rw [heq, thread?_wake, hquiet.thread?]

theorem memory_grantEvent (k : Kernel) (flag : ObjectId) (g : EventGrant) :
    (k.grantEvent flag g).memory = k.tellRemaining (k.memory.tell g.outAddress g.seen) g.thread := by
  obtain ⟨k₁, hquiet, hmemory, heq⟩ := grantEvent_eq k flag g
  rw [heq, memory_wake, hmemory]
  refine tellRemaining_congr ?_ (congrArg Clock.now hquiet.clock) _
  rw [waitOf?, hquiet.thread?, waitOf?]

theorem now_grantEvent (k : Kernel) (flag : ObjectId) (g : EventGrant) : (k.grantEvent flag g).now = k.now := by
  obtain ⟨k₁, hquiet, -, heq⟩ := grantEvent_eq k flag g
  rw [heq, now_wake]
  exact congrArg Clock.now hquiet.clock

/-- Waiters that are let go find their words in guest memory in the order in which they were told. -/
theorem memory_grantEvents {grants : List EventGrant} (flag : ObjectId) (honce : (grants.map (·.thread)).Nodup) :
    (grants.foldl (fun k g => k.grantEvent flag g) k).memory =
      grants.foldl (fun m g => k.tellRemaining (m.tell g.outAddress g.seen) g.thread) k.memory := by
  induction grants generalizing k with
  | nil => rfl
  | cons g rest ih =>
    rw [List.map_cons, List.nodup_cons] at honce
    rw [List.foldl_cons, List.foldl_cons, ih honce.2, memory_grantEvent]
    refine List.foldl_ext _ _ _ fun m g' hg' => tellRemaining_congr ?_ (now_grantEvent k flag g) _
    have hne : g'.thread ≠ g.thread := fun heq => honce.1 (heq ▸ List.mem_map_of_mem hg')
    rw [waitOf?, thread?_grantEvent, if_neg hne, waitOf?]

theorem onlyThreads_grantEvents (flag : ObjectId) (grants : List EventGrant) :
    OnlyThreads k (grants.foldl (fun k g => k.grantEvent flag g) k) := by
  induction grants generalizing k with
  | nil => exact (Quiet.refl k).onlyThreads
  | cons g rest ih =>
    obtain ⟨k₁, hquiet, -, heq⟩ := grantEvent_eq k flag g
    rw [List.foldl_cons, heq]
    exact (hquiet.onlyThreads.trans (onlyThreads_wake ..)).trans ih

/-- What follows after the bits of an event flag have been raised to `p`: those whom the pattern they see satisfies are
told that pattern and woken, in the order of the queue, and the others go on waiting. -/
structure LetsGo (k : Kernel) (f : EventFlag) (p : UInt32) (reply : Reply Unit) : Prop where
  result : reply.result = .ok ()
  flag : reply.kernel.objects.eventFlag? f.id = some (f.passed p)
  order : reply.kernel = ((EventFlag.satisfied p f.waiters).map EventFlag.grant).foldl
    (fun k g => k.grantEvent f.id g) (k.put (.eventFlag (f.passed p)))
  woken : ∀ e ∈ EventFlag.satisfied p f.waiters, ∃ t w, k.thread? e.1.thread = some t ∧ t.wait = some w ∧
    w.handle = f.id ∧ reply.kernel.thread? e.1.thread = some (t.unpark 0)
  others : ∀ id, id ∉ (EventFlag.satisfied p f.waiters).map (·.1.thread) → reply.kernel.thread? id = k.thread? id
  told : reply.kernel.memory = (EventFlag.satisfied p f.waiters).foldl
    (fun m e => k.tellRemaining (m.tell e.1.request.outAddress e.2) e.1.thread) k.memory

/-- **Raising bits lets go whom it should.** -/
theorem letsGo_setEventFlag (h : k.Placed L) (hf : k.objects.eventFlag? f.id = some f) (bits : UInt32) :
    k.LetsGo f (f.pattern ||| bits) (k.setEventFlag f.id bits) := by
  have hget := ObjectTable.eventFlag?_eq_some.mp hf
  have hset : k.setEventFlag f.id bits =
      ((f.raise bits).2.foldl (fun k g => k.grantEvent f.id g) (k.put (.eventFlag (f.raise bits).1))).done () := by
    unfold setEventFlag
    rw [hf]
  have hraise : f.raise bits =
      (f.passed (f.pattern ||| bits), (EventFlag.satisfied (f.pattern ||| bits) f.waiters).map EventFlag.grant) := by
    unfold EventFlag.raise
    rw [EventFlag.serve_eq]
    rfl
  rw [hraise] at hset
  generalize f.pattern ||| bits = p at hset ⊢
  have hthreads : ∀ id, (k.put (.eventFlag (f.passed p))).thread? id = k.thread? id :=
    thread?_put_of_kind_ne (o := .eventFlag f) _ hget nofun rfl rfl
  have hmap : ((EventFlag.satisfied p f.waiters).map EventFlag.grant).map (·.thread) =
      (EventFlag.satisfied p f.waiters).map (·.1.thread) := List.map_map
  have hwoken : ∀ id, (k.setEventFlag f.id bits).kernel.thread? id =
      if id ∈ (EventFlag.satisfied p f.waiters).map (·.1.thread) then (k.thread? id).map (·.woken 0)
      else k.thread? id := by
    intro id
    rw [hset, ← hmap, ← hthreads]
    exact thread?_foldl (·.thread) (fun k g id => thread?_grantEvent k f.id g id) _ _ id
  refine ⟨congrArg Reply.result hset, ?_, congrArg Reply.kernel hset, fun e he => ?_, fun id hout => ?_, ?_⟩
  · -- Telling and waking change threads only.
    have hstored : (k.put (.eventFlag (f.passed p))).objects.get? f.id = some (.eventFlag (f.passed p)) :=
      (ObjectTable.get?_put ..).trans (if_pos rfl)
    rw [hset, ObjectTable.eventFlag?_eq_some]
    obtain hsame | ⟨t, -, ht, -⟩ := (onlyThreads_grantEvents f.id
      ((EventFlag.satisfied p f.waiters).map EventFlag.grant)).objects f.id
    · exact hsame.trans hstored
    · rw [hstored] at ht
      cases ht
  · have hmem : e.1.thread ∈ (EventFlag.satisfied p f.waiters).map (·.1.thread) := List.mem_map_of_mem he
    obtain ⟨t, w, ht, hw, hhandle⟩ := h.waits hget ((EventFlag.threads_satisfied p f.waiters).subset hmem)
    refine ⟨t, w, ht, hw, hhandle, ?_⟩
    rw [hwoken, if_pos hmem, ht, Option.map_some, Thread.woken_of_waiting hw]
  · rw [hwoken, if_neg hout]
  · -- Nobody is told twice, so what each is told depends on the kernel before the call only.
    have honce : (((EventFlag.satisfied p f.waiters).map EventFlag.grant).map (·.thread)).Nodup := by
      rw [hmap]
      exact (h.nodup_waiting hget).sublist (EventFlag.threads_satisfied p f.waiters)
    rw [hset]
    show (List.foldl _ _ _ : Kernel).memory = _
    rw [memory_grantEvents f.id honce, List.foldl_map]
    refine List.foldl_ext _ _ _ fun m e _ => ?_
    have hwait : (k.put (.eventFlag (f.passed p))).waitOf? e.1.thread = k.waitOf? e.1.thread := by
      rw [waitOf?, hthreads]
      rfl
    exact tellRemaining_congr hwait rfl _

/-- Event flags are sound in every reachable kernel. -/
theorem flagSound_run (config : KernelConfig) (memory : Memory) (operations : List Operation)
    (hf : ((Kernel.new config memory).run operations).objects.eventFlag? x = some f) : f.Sound :=
  objects_run (I := Object.FlagSound) (fun _ h _ => h.flagSound) (fun _ _ _ _ h => h.flagSound) config memory operations x
    (.eventFlag f) (ObjectTable.eventFlag?_eq_some.mp hf) nofun

/-- **Event flags never strand a satisfied waiter.** In every reachable state no waiter of an event flag is satisfied by
its pattern, every waiter asks for some bits in a valid mode, and a flag for one waiter has one at most. Raising bits lets
go, in one pass and in the order of the queue, exactly those whom the pattern left by those before them satisfies, and
tells each the pattern it saw. -/
theorem eventFlags_run (config : KernelConfig) (memory : Memory) (operations : List Operation)
    (hf : ((Kernel.new config memory).run operations).objects.eventFlag? x = some f) :
    f.Sound ∧ ((Kernel.new config memory).handedOut operations < 2 ^ 32 - 1 → ∀ bits,
      ((Kernel.new config memory).run operations).LetsGo f (f.pattern ||| bits)
        (((Kernel.new config memory).run operations).setEventFlag x bits)) := by
  refine ⟨flagSound_run config memory operations hf, fun hids bits => ?_⟩
  have hid : f.id = x := ObjectTable.id_of_get? (ObjectTable.eventFlag?_eq_some.mp hf)
  subst hid
  exact letsGo_setEventFlag (placed_run config memory operations hids).2 hf bits

/-- Three threads wait on one flag: for both of the bits 0 and 1, to clear them; for both of the bits 1 and 2; and for any
of the bits 2 and 3, to clear the pattern. -/
def threeWaiters : List Operation :=
  [.syscall (.createThread "both" 0x08900000 32 0x1000 0), .syscall (.createThread "passed" 0x08900000 33 0x1000 0),
    .syscall (.createThread "any" 0x08900000 34 0x1000 0), .syscall (.startThread 1 0 0), .syscall (.startThread 2 0 0),
    .syscall (.startThread 3 0 0), .syscall (.createEventFlag "news" 0x200 0), .dispatch,
    .syscall (.waitEventFlag 4 ⟨0x3, 0x20, 0x08800010⟩ 0 false), .dispatch,
    .syscall (.waitEventFlag 4 ⟨0x6, 0x00, 0x08800014⟩ 0 false), .dispatch,
    .syscall (.waitEventFlag 4 ⟨0xC, 0x11, 0x08800018⟩ 0 false)]

/-- Bits 0, 1 and 2 are raised. They would satisfy each of the three, but the first leaves only bit 2, which is not enough
for the second. -/
theorem eventFlags_run_threeWaiters : ∃ f,
    (Kernel.new {} {}).handedOut threeWaiters < 2 ^ 32 - 1 ∧
      ((Kernel.new {} {}).run threeWaiters).objects.eventFlag? 4 = some f ∧ f.Sound ∧
      (EventFlag.satisfied (f.pattern ||| 0x7) f.waiters).map (fun e => (e.1.thread, e.2)) = [(1, 0x7), (3, 0x4)] ∧
      (EventFlag.passedOver (f.pattern ||| 0x7) f.waiters).threads = [2] ∧
      ((Kernel.new {} {}).run threeWaiters).LetsGo f (f.pattern ||| 0x7)
        (((Kernel.new {} {}).run threeWaiters).setEventFlag 4 0x7) := by
  have hids : (Kernel.new {} {}).handedOut threeWaiters < 2 ^ 32 - 1 := handedOut_lt (by decide)
  obtain ⟨f, hf⟩ := Option.isSome_iff_exists.mp
    (show (((Kernel.new {} {}).run threeWaiters).objects.eventFlag? 4).isSome by decide +kernel)
  have hflag : (((Kernel.new {} {}).run threeWaiters).objects.eventFlag? 4).map (fun f => (f.pattern, f.waiters)) =
      some (0, [⟨1, 32, ⟨0x3, 0x20, 0x08800010⟩⟩, ⟨2, 33, ⟨0x6, 0x00, 0x08800014⟩⟩,
        ⟨3, 34, ⟨0xC, 0x11, 0x08800018⟩⟩]) := by decide +kernel
  rw [hf, Option.map_some, Option.some.injEq, Prod.mk.injEq] at hflag
  obtain ⟨hsound, hletsGo⟩ := eventFlags_run {} {} threeWaiters hf
  refine ⟨f, hids, hf, hsound, ?_, ?_, hletsGo hids 0x7⟩
  · rw [hflag.1, hflag.2]
    decide
  · rw [hflag.1, hflag.2]
    decide

end Kernel
end GuestKernel
