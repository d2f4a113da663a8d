/-
# The queues of objects, and what calls do to them

A semaphore, an event flag and a mutex have one queue each, a message pipe one on each side. What a call does to a queue
of the object it works on is one of four things (`Attends`).

| what | by |
| --- | --- |
| it serves threads from the front, one after another, or nobody | `signalSemaphore`, `unlockMutex`, transfers; all others |
| it puts the running thread into the queue | the calls that block |
| it lets go some threads that the pattern satisfies | `setEventFlag` |
| it sends everybody away | the calls that cancel |

An operation that works on no object or on another one at most takes threads off the queue (`line_after_other`).

Source: specification, 4.4 to 4.6.
-/

import GuestKernel.Proofs.BlockingCalls
import GuestKernel.Proofs.EventWaiters
import GuestKernel.Proofs.MutexOwnership

namespace GuestKernel

/-- A waiter, whatever it asks for. -/
def Waiter.anyone {ρ : Type} (w : Waiter ρ) : Waiter Unit := ⟨w.thread, w.priority, ()⟩

namespace WaitQueue

variable {ρ : Type}

/-- A queue, whatever its waiters ask for. -/
def line (q : WaitQueue ρ) : WaitQueue Unit := q.map Waiter.anyone

theorem threads_line (q : WaitQueue ρ) : q.line.threads = q.threads := by
  simp [line, threads, Waiter.anyone]

theorem threads_append (q q' : WaitQueue ρ) : threads (q ++ q') = q.threads ++ q'.threads := List.map_append

theorem line_append (q q' : WaitQueue ρ) : line (q ++ q') = q.line ++ q'.line := List.map_append

/-- Who is queued where does not depend on what is asked for. -/
theorem line_enqueue (attributes : UInt32) (w : Waiter ρ) (q : WaitQueue ρ) :
    (q.enqueue attributes w).line = q.line.enqueue attributes w.anyone := by
  unfold enqueue line
  split
  · simp
  · simp only [List.takeWhile_map, List.dropWhile_map, List.map_append, List.map_cons]
    rfl

theorem line_remove (q : WaitQueue ρ) (id : ThreadId) : (q.remove id).line.Sublist q.line :=
  List.eraseP_sublist.map _

end WaitQueue

namespace Object

/-- A queue of an object. -/
def line : Line → Object → WaitQueue Unit
  | .semaphore, semaphore s => s.waiters.line
  | .eventFlag, eventFlag f => f.waiters.line
  | .mutex, mutex m => m.waiters.line
  | .senders, messagePipe p => p.senders.line
  | .receivers, messagePipe p => p.receivers.line
  | _, _ => []

/-- The attributes of an object with queues. -/
def attributes : Object → UInt32
  | semaphore s => s.attributes
  | eventFlag f => f.attributes
  | mutex m => m.attributes
  | messagePipe p => p.attributes
  | _ => 0

/-- Whoever stands in a line of an object waits on it. -/
theorem mem_waiting_of_mem_line {l : Line} {o : Object} {w : Waiter Unit} (h : w ∈ o.line l) : w.thread ∈ o.waiting := by
  have hthread : ∀ {ρ : Type} {q : WaitQueue ρ}, w ∈ q.line → w.thread ∈ q.threads := by
    intro ρ q hw
    rw [← WaitQueue.threads_line]
    exact List.mem_map_of_mem hw
  cases o <;> cases l <;> first | exact absurd h List.not_mem_nil | skip
  case semaphore.semaphore | eventFlag.eventFlag | mutex.mutex => exact hthread h
  case messagePipe.senders => exact List.mem_append_left _ (hthread h)
  case messagePipe.receivers => exact List.mem_append_right _ (hthread h)

theorem IsNew.line {o : Object} (h : o.IsNew) (l : Line) : o.line l = [] := by
  refine List.eq_nil_iff_forall_not_mem.mpr fun w hw => ?_
  have hmem := mem_waiting_of_mem_line hw
  rw [← map_entries, h.entries_eq] at hmem
  cases hmem

/-- Whoever gives up leaves the others in their order. -/
theorem line_removeWaiter (o : Object) (id : ThreadId) (l : Line) :
    ((o.removeWaiter id).line l).Sublist (o.line l) ∧ (o.removeWaiter id).attributes = o.attributes := by
  cases o with
  | semaphore | eventFlag | mutex => cases l <;> first | exact ⟨WaitQueue.line_remove .., rfl⟩ | exact ⟨.slnil, rfl⟩
  | messagePipe p =>
    unfold removeWaiter
    dsimp only
    split
    all_goals
      cases l with
      | senders | receivers => exact ⟨by first | exact WaitQueue.line_remove .. | exact List.Sublist.refl _, rfl⟩
      | _ => exact ⟨.slnil, rfl⟩
  | _ => cases l <;> exact ⟨.slnil, rfl⟩

theorem line_without (o : Object) (ids : List ThreadId) (l : Line) :
    ((o.without ids).line l).Sublist (o.line l) ∧ (o.without ids).attributes = o.attributes := by
  unfold without
  induction ids generalizing o with
  | nil => exact ⟨List.Sublist.refl _, rfl⟩
  | cons id rest ih =>
    obtain ⟨hline, ha⟩ := o.line_removeWaiter id l
    obtain ⟨hline', ha'⟩ := ih (o.removeWaiter id)
    exact ⟨hline'.trans hline, ha'.trans ha⟩

/-- Threads, callbacks and guest blocks have no such queues. -/
theorem kind_of_line_ne {o : Object} {l : Line} (h : o.line l ≠ []) : o.kind ≠ .thread ∧ o.kind ≠ .callback := by
  cases o with
  | thread | callback => exact absurd (by cases l <;> rfl) h
  | _ => simp [kind]

end Object

namespace Kernel

variable {k k' : Kernel} {x : ObjectId} {o o' : Object} {l : Line} {L : List ThreadId} {k₁ : Kernel}
  {amount count need : Int32} {bits waitingAddress pattern sendersAddress receiversAddress timeoutAddress : UInt32}
  {r : PipeRequest} {callbacks sending : Bool}

/-- A queue of the object of an id. -/
def line (k : Kernel) (x : ObjectId) (l : Line) : WaitQueue Unit := ((k.objects.get? x).map (·.line l)).getD []

/-- The attributes of the object of an id. -/
def attributes (k : Kernel) (x : ObjectId) : UInt32 := ((k.objects.get? x).map (·.attributes)).getD 0

theorem line_eq (h : k.objects.get? x = some o) (l : Line) : k.line x l = o.line l := by
  unfold line
  rw [h]
  rfl

theorem attributes_eq (h : k.objects.get? x = some o) : k.attributes x = o.attributes := by
  unfold attributes
  rw [h]
  rfl

/-- The threads that have been woken between two states, the first one first. -/
def wokenUntil (k k' : Kernel) : List ThreadId :=
  ((k'.wakings.take (k'.wakings.length - k.wakings.length)).map (·.1)).reverse

theorem wokenUntil_eq {new : List (ThreadId × Int32)} (h : k'.wakings = new ++ k.wakings) :
    k.wokenUntil k' = (new.map (·.1)).reverse := by
  unfold wokenUntil
  rw [h]
  simp

/-- What a call does to a queue of the object it works on. -/
inductive Attends (k k' : Kernel) (x : ObjectId) (l : Line) : Prop where
  /-- Threads are served from the front, one after another, and the others are left where they are. -/
  | serves (front : WaitQueue Unit) (hline : k.line x l = front ++ k'.line x l)
      (horder : front.threads.Sublist (k.wokenUntil k'))
      (hrest : ∀ w ∈ k'.line x l, k'.thread? w.thread = k.thread? w.thread) (ha : k'.attributes x = k.attributes x)
  /-- The running thread enters. -/
  | enters {t : Thread} (hc : k.current = some t.id) (ht : k.thread? t.id = some t)
      (hout : t.id ∉ (k.line x l).threads)
      (hline : k'.line x l = (k.line x l).enqueue (k.attributes x) ⟨t.id, t.priority, ()⟩)
      (hrest : ∀ id, id ≠ t.id → k'.thread? id = k.thread? id) (ha : k'.attributes x = k.attributes x)
  /-- An event flag lets go whom its pattern satisfies. -/
  | picks (hl : l = .eventFlag) (hline : (k'.line x l).Sublist (k.line x l)) (ha : k'.attributes x = k.attributes x)
  /-- All waits on the object are cancelled. -/
  | dismisses (hline : k'.line x l = []) (hthreads : ∀ id, k'.thread? id = k.thread? id ∨
      k'.thread? id = (k.thread? id).map (·.woken KernelError.waitCancelled.code))

/-! ### Who stands in a queue -/

/-- Whoever stands in a line of an object waits for it. -/
theorem waits_of_mem_line (h : k.Placed L) {w : Waiter Unit} (hw : w ∈ k.line x l) :
    ∃ t wait, k.thread? w.thread = some t ∧ t.wait = some wait ∧ wait.handle = x := by
  cases ho : k.objects.get? x with
  | none =>
    simp [line, ho] at hw
  | some o =>
    rw [line_eq ho] at hw
    exact h.waits ho (Object.mem_waiting_of_mem_line hw)

/-- The running thread stands in no queue. -/
theorem not_mem_line (hc : k.Coherent) (h : k.Placed L) (hd : k.delivering = none) {t : Thread}
    (hcur : k.current = some t.id) (ht : k.thread? t.id = some t) : t.id ∉ (k.line x l).threads := by
  intro hmem
  obtain ⟨w, hw, hid⟩ := List.mem_map.mp hmem
  obtain ⟨t', wait, ht', hwait, -⟩ := waits_of_mem_line h hw
  rw [hid, ht, Option.some.injEq] at ht'
  have hidle := (hc.threads t.id t ht).wait_eq_none (by rw [hc.runs hd hcur ht]; rfl)
  rw [← ht', hidle] at hwait
  cases hwait

/-! ### Calls that wake nobody -/

theorem Attends.of_same (hline : k'.line x l = k.line x l) (ha : k'.attributes x = k.attributes x)
    (hthreads : ∀ id, k'.thread? id = k.thread? id) : k.Attends k' x l :=
  .serves [] hline.symm (List.nil_sublist _) (fun w _ => hthreads w.thread) ha

theorem SameObjects.attends (h : SameObjects k k') (x : ObjectId) (l : Line) : k.Attends k' x l := by
  refine .of_same ?_ ?_ h.thread?
  · rw [line, line, h.objects]
  · rw [attributes, attributes, h.objects]

/-- What holds of the value that an object is given. -/
theorem line_put (o' : Object) : (k.put o').line o'.id l = o'.line l ∧ (k.put o').attributes o'.id = o'.attributes := by
  have hget : (k.put o').objects.get? o'.id = some o' := (ObjectTable.get?_put ..).trans (if_pos rfl)
  exact ⟨line_eq hget l, attributes_eq hget⟩

/-- A new value of an object that has the queues of the old one. -/
theorem attends_put (o' : Object) (ho : k.objects.get? o.id = some o) (hkind : o.kind ≠ .thread)
    (h : SameObjects (k.put o') k')
    (hid : o'.id = o.id) (hkind' : o'.kind = o.kind) (hline : o'.line l = o.line l)
    (ha : o'.attributes = o.attributes) : k.Attends k' o.id l := by
  obtain ⟨hline', ha'⟩ := line_put (k := k) (l := l) o'
  rw [hid] at hline' ha'
  refine .of_same ?_ ?_ fun id => ?_
  · rw [line, h.objects, ← line, hline', hline, line_eq ho]
  · rw [attributes, h.objects, ← attributes, ha', ha, attributes_eq ho]
  · rw [h.thread?, thread?_put_of_kind_ne o' ho hkind hid hkind']

/-- A call that blocks on an object puts the running thread into one queue of it, or is refused. -/
theorem attends_block {ρ : Type} {w : Wait} {request : ρ} {queue : Waiter ρ → Object} (hc : k.Coherent)
    (h : k.Placed L) (ho : k.objects.get? o.id = some o) (hkind : o.kind ≠ .thread)
    (hid : ∀ w, (queue w).id = o.id) (hkind' : ∀ w, (queue w).kind = o.kind)
    (ha : ∀ w, (queue w).attributes = o.attributes)
    (hline : (∀ w, (queue w).line l = (o.line l).enqueue o.attributes w.anyone) ∨ ∀ w, (queue w).line l = o.line l) :
    k.Attends (k.block w request queue).kernel o.id l := by
  obtain ⟨k₁, e, hquiet, -, heq⟩ | ⟨t, timeout, hd, hcur, ht, heq⟩ := block_cases k w request queue <;> rw [heq]
  · exact hquiet.toSameObjects.attends o.id l
  · have hout := not_mem_line (x := o.id) (l := l) hc h hd hcur ht
    generalize hqueued : queue ⟨t.id, t.priority, request⟩ = o'
    generalize hparked : (k.note (.waitBegun t.id w.kind w.handle)).park t { w with timeout, since := k.now } = k₁
    have hid' : o'.id = o.id := hqueued ▸ hid _
    have hget : k₁.objects.get? o.id = some o := by
      have hne : t.id ≠ o.id := by
        intro hsame
        have hthread := ObjectTable.thread?_eq_some.mp ht
        rw [hsame, ho, Option.some.injEq] at hthread
        exact hkind (by rw [hthread]; rfl)
      rw [← hparked]
      exact (ObjectTable.get?_put ..).trans ((if_neg hne).trans ho)
    have hrest : ∀ id, id ≠ t.id → (k₁.put o').thread? id = k.thread? id := by
      intro id hne
      rw [thread?_put_of_kind_ne o' hget hkind hid' (hqueued ▸ hkind' _), ← hparked, thread?_park, if_neg (Ne.symm hne)]
      rfl
    obtain ⟨hline', ha'⟩ := line_put (k := k₁) (l := l) o'
    rw [hid', ← hqueued] at hline' ha'
    rw [ha, ← attributes_eq ho, hqueued] at ha'
    rw [← line_eq ho, ← attributes_eq ho] at hline
    rcases hline with hline | hline <;> rw [hline, hqueued] at hline'
    · exact .enters hcur ht hout hline' hrest ha'
    · refine .serves [] hline'.symm (List.nil_sublist _) (fun w hw => hrest w.thread fun heq => ?_) ha'
      rw [kernel_done, hline'] at hw
      exact hout (heq ▸ List.mem_map_of_mem hw)

/-! ### Calls that wake threads -/

/-- What changes threads only leaves lines alone. -/
theorem OnlyThreads.line (h : OnlyThreads k k') (x : ObjectId) (l : Line) :
    k'.line x l = k.line x l ∧ k'.attributes x = k.attributes x := by
  obtain heq | ⟨t, t', ht, ht', -⟩ := h.objects x
  · exact ⟨by rw [Kernel.line, heq, ← Kernel.line], by rw [attributes, heq, ← attributes]⟩
  · rw [line_eq ht, line_eq ht', attributes_eq ht, attributes_eq ht']
    cases l <;> exact ⟨rfl, rfl⟩

/-- Threads leave a queue of an object from the front, and are woken in that order. -/
theorem attends_wakeAll (o' : Object) (front : WaitQueue Unit) (ids : List ThreadId) (h : k.Placed L)
    (ho : k.objects.get? o.id = some o) (hkind : o.kind ≠ .thread) (h₁ : SameObjects (k.put o') k₁)
    (hid : o'.id = o.id) (hkind' : o'.kind = o.kind) (ha : o'.attributes = o.attributes)
    (hfront : o.line l = front ++ o'.line l) (horder : front.threads.Sublist ids)
    (hsplit : o.waiting = ids ++ o'.waiting) (hw : k₁.wakings = k.wakings) (result : Int32) :
    k.Attends (k₁.wakeAll ids result) o.id l := by
  have hn := h.nodup_waiting ho
  rw [hsplit] at hn
  obtain ⟨hn, -, hdisjoint⟩ := List.nodup_append.mp hn
  have hthreads : ∀ id, k₁.thread? id = k.thread? id := by
    intro id
    rw [h₁.thread?, thread?_put_of_kind_ne o' ho hkind hid hkind']
  have hwait : ∀ id ∈ ids, (k₁.waitOf? id).isSome = true := by
    intro id hmem
    obtain ⟨t, w, ht, hwait, -⟩ := h.waits ho (hsplit ▸ List.mem_append_left _ hmem)
    rw [waitOf?, hthreads, ht, Option.bind_some, hwait]
    rfl
  obtain ⟨hline', ha'⟩ := (onlyThreads_wakeAll k₁ ids result).line o.id l
  obtain ⟨hline₁, ha₁⟩ := line_put (k := k) (l := l) o'
  have hline : (k₁.wakeAll ids result).line o.id l = o'.line l := by
    rw [hline', Kernel.line, h₁.objects, ← Kernel.line, ← hid, hline₁]
  refine .serves front ?_ ?_ (fun w hw => ?_) ?_
  · rw [hline, ← hfront, line_eq ho]
  · have hwakings := wakings_wakeAll hn hwait result
    rw [hw] at hwakings
    rw [wokenUntil_eq hwakings]
    simpa [Function.comp_def] using horder
  · rw [hline] at hw
    rw [thread?_wakeAll, if_neg fun hmem => hdisjoint _ hmem _ (Object.mem_waiting_of_mem_line hw) rfl, hthreads]
  · rw [ha', attributes, h₁.objects, ← attributes, ← hid, ha₁, ha, hid, attributes_eq ho]

/-- A signal serves from the front. -/
theorem attends_signalSemaphore (h : k.Placed L) : k.Attends (k.signalSemaphore x amount).kernel x l := by
  have hrefuse := (Quiet.refl k).toSameObjects.attends x l
  unfold signalSemaphore
  split
  · exact hrefuse
  next s hs =>
  obtain ⟨rfl, hget⟩ := ObjectTable.keyed_semaphore? hs
  split
  · exact hrefuse
  split
  · exact hrefuse
  obtain ⟨front, hsplit, hserved⟩ := Semaphore.serve_front (s.count + amount) s.waiters
  have hthreads : s.waiters.threads = (s.release amount).2 ++ (s.release amount).1.waiters.threads := by
    show s.waiters.threads = (Semaphore.serve _ _).2.2 ++ WaitQueue.threads (Semaphore.serve _ _).2.1
    rw [hserved]
    exact (congrArg WaitQueue.threads hsplit).trans List.map_append
  have hfront : ∃ front : WaitQueue Unit, (Object.semaphore s).line l = front ++ (Object.semaphore (s.release amount).1).line l ∧
      front.threads.Sublist (s.release amount).2 := by
    cases l with
    | semaphore =>
      refine ⟨front.line, ?_, ?_⟩
      · exact (congrArg WaitQueue.line hsplit).trans (WaitQueue.line_append ..)
      · rw [WaitQueue.threads_line, ← hserved]
        exact List.Sublist.refl _
    | _ => exact ⟨[], rfl, List.nil_sublist _⟩
  obtain ⟨front, hfront, horder⟩ := hfront
  exact attends_wakeAll (o := .semaphore s) (.semaphore (s.release amount).1) front _ h hget (by simp [Object.kind])
    (Quiet.refl _).toSameObjects rfl rfl rfl hfront horder hthreads rfl 0

/-- The last unlock hands the mutex to the front. -/
theorem attends_unlockMutex (h : k.Placed L) : k.Attends (k.unlockMutex x count).kernel x l := by
  have hrefuse := (Quiet.refl k).toSameObjects.attends x l
  unfold unlockMutex
  split
  · exact hrefuse
  next m hm =>
  obtain ⟨rfl, hget⟩ := ObjectTable.keyed_mutex? hm
  have hkind : (Object.mutex m).kind ≠ .thread := by simp [Object.kind]
  split
  · exact hrefuse
  split
  · exact hrefuse
  split
  · exact hrefuse
  · next m' hu =>
    -- Nobody takes over: the waiters are the same.
    have hwaiters : m' = { m with owner := m'.owner, lockCount := m'.lockCount } := by
      obtain ⟨-, -, ⟨-, -, rfl⟩ | ⟨-, -, -, rfl⟩ | ⟨-, w, rest, -, hnext, -⟩⟩ := Mutex.unlock_ok hu
      · rfl
      · rfl
      · cases hnext
    exact attends_put (.mutex m') hget hkind (Quiet.refl _).toSameObjects (by rw [hwaiters]; rfl) rfl
      (by rw [hwaiters]; cases l <;> rfl) (by rw [hwaiters]; rfl)
  · next m' next hu =>
    obtain ⟨-, -, ⟨-, hnext, -⟩ | ⟨-, -, hnext, -⟩ | ⟨-, w, rest, hq, hnext, rfl⟩⟩ := Mutex.unlock_ok hu
    · cases hnext
    · cases hnext
    obtain rfl := Option.some.inj hnext
    let handed : Mutex := { m with owner := some w.thread, lockCount := w.request, waiters := rest }
    have hnote : Quiet (k.put (.mutex handed)) ((k.put (.mutex handed)).note (.mutexHanded m.id w.thread)) := .note _ rfl
    refine attends_wakeAll (o := .mutex m) (.mutex handed) (if l = .mutex then [w.anyone] else []) [w.thread] h hget
      hkind hnote.toSameObjects rfl rfl rfl ?_ ?_ ?_ rfl 0
    · cases l with
      | mutex => exact congrArg WaitQueue.line hq
      | _ => rfl
    · split
      · exact List.Sublist.refl _
      · exact List.nil_sublist _
    · exact congrArg WaitQueue.threads hq

/-- Setting events serves whoever is satisfied, not only the front. -/
theorem attends_setEventFlag : k.Attends (k.setEventFlag x bits).kernel x l := by
  unfold setEventFlag
  split
  · exact (Quiet.refl k).toSameObjects.attends x l
  next f hf =>
  obtain ⟨rfl, hget⟩ := ObjectTable.keyed_eventFlag? hf
  have hgrants : ∀ (grants : List EventGrant) (k : Kernel), OnlyThreads k (grants.foldl (fun k g => k.grantEvent f.id g) k) := by
    intro grants
    induction grants with
    | nil => exact fun k => .of_objects rfl rfl rfl rfl
    | cons g rest ih =>
      intro k
      obtain ⟨k₁, hquiet, -, heq⟩ := grantEvent_eq k f.id g
      rw [List.foldl_cons, heq]
      exact hquiet.onlyThreads.trans ((onlyThreads_wake k₁ g.thread 0).trans (ih _))
  obtain ⟨hline', ha'⟩ := (hgrants (f.raise bits).2 (k.put (.eventFlag (f.raise bits).1))).line f.id l
  obtain ⟨hline, ha⟩ := line_put (k := k) (l := l) (.eventFlag (f.raise bits).1)
  have hattributes := ha'.trans (ha.trans (attributes_eq hget).symm)
  have hlines := hline'.trans hline
  cases l with
  | eventFlag =>
    refine .picks rfl ?_ hattributes
    rw [line_eq hget]
    exact hlines ▸ (EventFlag.serve_sublist (f.pattern ||| bits) f.waiters).map _
  | _ =>
    refine .serves [] ((line_eq hget _).trans hlines.symm) (List.nil_sublist _) (fun w hw => ?_) hattributes
    exact absurd (hlines ▸ hw) List.not_mem_nil

/-- Everybody is off the queue, and nobody is woken. -/
theorem attends_emptied (o' : Object) (ho : k.objects.get? o.id = some o) (hkind : o.kind ≠ .thread)
    (h₁ : SameObjects (k.put o') k₁) (hid : o'.id = o.id) (hkind' : o'.kind = o.kind) (hempty : o'.line l = []) :
    k₁.line o.id l = [] ∧ ∀ id, k₁.thread? id = k.thread? id := by
  constructor
  · rw [Kernel.line, h₁.objects, ← Kernel.line, ← hid, (line_put (k := k) o').1, hempty]
  · intro id
    rw [h₁.thread?, thread?_put_of_kind_ne o' ho hkind hid hkind']

/-- A number is written and then everybody is woken; if it cannot be written nobody is. -/
theorem attends_drain (m : Except Fault Memory) (ids : List ThreadId)
    (h₁ : k₁.line x l = [] ∧ ∀ id, k₁.thread? id = k.thread? id) :
    k.Attends ((k₁.withMemory m).andThen fun _ k => (k.wakeAll ids KernelError.waitCancelled.code).done ()).kernel x l := by
  have hquiet := Quiet.withMemory k₁ m
  obtain ⟨hline, -⟩ := hquiet.onlyThreads.line x l
  have hthreads : ∀ id, (k₁.withMemory m).kernel.thread? id = k.thread? id := fun id => (hquiet.thread? id).trans (h₁.2 id)
  obtain ⟨e, -, heq, -⟩ | ⟨a, -, heq⟩ := Reply.kernel_andThen (k₁.withMemory m)
    fun _ k => (k.wakeAll ids KernelError.waitCancelled.code).done () <;> rw [heq]
  · exact .dismisses (hline.trans h₁.1) fun id => Or.inl (hthreads id)
  · have hwoken := (onlyThreads_wakeAll (k₁.withMemory m).kernel ids KernelError.waitCancelled.code).line x l
    refine .dismisses (hwoken.1.trans (hline.trans h₁.1)) fun id => ?_
    rw [kernel_done, thread?_wakeAll, hthreads]
    split
    · exact Or.inr rfl
    · exact Or.inl rfl

theorem attends_cancelSemaphore : k.Attends (k.cancelSemaphore x count waitingAddress).kernel x l := by
  have hrefuse := (Quiet.refl k).toSameObjects.attends x l
  unfold cancelSemaphore
  split
  · exact hrefuse
  next s hs =>
  obtain ⟨rfl, hget⟩ := ObjectTable.keyed_semaphore? hs
  split
  · exact hrefuse
  · exact attends_drain _ _ (attends_emptied (o := .semaphore s) (.semaphore (s.reset count)) hget
      (by simp [Object.kind]) (Quiet.refl _).toSameObjects rfl rfl (by cases l <;> rfl))

theorem attends_cancelEventFlag : k.Attends (k.cancelEventFlag x pattern waitingAddress).kernel x l := by
  unfold cancelEventFlag
  split
  · exact (Quiet.refl k).toSameObjects.attends x l
  next f hf =>
  obtain ⟨rfl, hget⟩ := ObjectTable.keyed_eventFlag? hf
  exact attends_drain _ _ (attends_emptied (o := .eventFlag f) (.eventFlag (f.reset pattern)) hget
    (by simp [Object.kind]) (Quiet.refl _).toSameObjects rfl rfl (by cases l <;> rfl))

theorem attends_cancelMutex : k.Attends (k.cancelMutex x count waitingAddress).kernel x l := by
  have hrefuse := (Quiet.refl k).toSameObjects.attends x l
  unfold cancelMutex
  split
  · exact hrefuse
  next m hm =>
  obtain ⟨rfl, hget⟩ := ObjectTable.keyed_mutex? hm
  split
  · exact hrefuse
  split
  · exact hrefuse
  · next owner _ =>
    exact attends_drain _ _ (attends_emptied (o := .mutex m) (.mutex (m.reset owner count)) hget
      (by simp [Object.kind]) (Quiet.refl _).toSameObjects rfl rfl (by cases l <;> rfl))

/-- A cancellation empties both lines. -/
theorem attends_cancelPipe : k.Attends (k.cancelPipe x sendersAddress receiversAddress).kernel x l := by
  unfold cancelPipe
  split
  · exact (Quiet.refl k).toSameObjects.attends x l
  next p hp =>
  obtain ⟨rfl, hget⟩ := ObjectTable.keyed_messagePipe? hp
  dsimp only
  generalize (k.put (.messagePipe p.reset)).memory.writeOptional sendersAddress (UInt32.ofNat p.senders.length) = m
  have hemptied := attends_emptied (o := .messagePipe p) (l := l) (.messagePipe p.reset) hget (by simp [Object.kind])
    (Quiet.withMemory (k.put (.messagePipe p.reset)) m).toSameObjects rfl rfl (by cases l <;> rfl)
  obtain ⟨e, -, heq, -⟩ | ⟨a, -, heq⟩ := Reply.kernel_andThen ((k.put (.messagePipe p.reset)).withMemory m) fun _ k =>
    (k.withMemory (k.memory.writeOptional receiversAddress (UInt32.ofNat p.receivers.length))).andThen fun _ k =>
      (k.wakeAll (p.senders.threads ++ p.receivers.threads) KernelError.waitCancelled.code).done () <;> rw [heq]
  · exact .dismisses hemptied.1 fun id => Or.inl (hemptied.2 id)
  · exact attends_drain _ _ hemptied

/-! ### Transfers -/

/-- **The rounds of a pipe serve the fronts of its queues**, one after another. -/
theorem settleFor_wakes (p : MessagePipe) (rounds : Nat) (hn : (p.senders.threads ++ p.receivers.threads).Nodup)
    (hw : ∀ id ∈ p.senders.threads ++ p.receivers.threads, (k.waitOf? id).isSome = true) :
    ∃ (sent received : WaitQueue PipeRequest) (woken : List (ThreadId × Int32)),
      p.senders = sent ++ (k.settleFor p rounds).2.senders ∧ p.receivers = received ++ (k.settleFor p rounds).2.receivers ∧
      (k.settleFor p rounds).1.wakings = woken ++ k.wakings ∧ sent.threads.Sublist (woken.map (·.1)).reverse ∧
      received.threads.Sublist (woken.map (·.1)).reverse ∧
      ∀ id, id ∉ sent.threads → id ∉ received.threads → (k.settleFor p rounds).1.thread? id = k.thread? id := by
  induction rounds generalizing k p with
  | zero => exact ⟨[], [], [], rfl, rfl, rfl, List.nil_sublist _, List.nil_sublist _, fun _ _ _ => rfl⟩
  | succ n ih =>
    unfold settleFor
    split
    · exact ⟨[], [], [], rfl, rfl, rfl, List.nil_sublist _, List.nil_sublist _, fun _ _ _ => rfl⟩
    next t p₁ hnext =>
    have hround := round_transfer (MessagePipe.next_of_next? hnext)
    obtain ⟨k₁, result, hquiet, hwake, hwakings⟩ := transfer_wakes k p₁ t
    generalize t.waiter = w at hround hwake
    generalize k.transfer p₁ t = after at hround hwake ⊢
    obtain ⟨k₂, p₂⟩ := after
    obtain rfl : k₂ = k₁.wake w.thread result := hwake
    -- The one that is served was queued once, so that the others wait as before.
    have hperm : (p.senders.threads ++ p.receivers.threads).Perm
        (w.thread :: (p₂.senders.threads ++ p₂.receivers.threads)) := by
      cases hround with
      | receive hq count =>
        rw [hq]
        exact List.perm_middle
      | send hq bytes hroom =>
        rw [hq]
        exact List.Perm.refl _
    obtain ⟨hserved, hn'⟩ := List.nodup_cons.mp (hperm.nodup hn)
    have hothers : ∀ id, id ≠ w.thread → (k₁.wake w.thread result).thread? id = k.thread? id :=
      fun id hne => (thread?_wake_of_ne hne result).trans (hquiet.thread? id)
    have hwaits : ∀ id ∈ p₂.senders.threads ++ p₂.receivers.threads,
        ((k₁.wake w.thread result).waitOf? id).isSome = true := by
      intro id hmem
      rw [waitOf?, hothers id fun heq => hserved (heq ▸ hmem)]
      exact hw id (hperm.mem_iff.mpr (List.mem_cons_of_mem _ hmem))
    obtain ⟨wait, hwait⟩ := Option.isSome_iff_exists.mp (hw w.thread (hperm.mem_iff.mpr (List.mem_cons_self ..)))
    have hwait₁ : k₁.waitOf? w.thread = some wait := by
      rw [waitOf?, hquiet.thread?]
      exact hwait
    obtain ⟨sent, received, woken, hsent, hreceived, hwoken, hsentOrder, hreceivedOrder, hframe⟩ := ih p₂ hn' hwaits
    rw [wakings_wake hwait₁, hwakings] at hwoken
    have hlater : ∀ {ids : List ThreadId}, ids.Sublist (woken.map (·.1)).reverse →
        ids.Sublist ((woken ++ [(w.thread, result)]).map (·.1)).reverse := by
      intro ids hsub
      simpa using hsub.cons _
    have hnow : ∀ {ids : List ThreadId}, ids.Sublist (woken.map (·.1)).reverse →
        (w.thread :: ids).Sublist ((woken ++ [(w.thread, result)]).map (·.1)).reverse := by
      intro ids hsub
      simpa using hsub
    cases hround with
    | receive hq count =>
      refine ⟨sent, w :: received, woken ++ [(w.thread, result)], hsent, ?_, ?_, hlater hsentOrder, hnow hreceivedOrder, ?_⟩
      · rw [hq]
        exact congrArg (w :: ·) hreceived
      · rw [List.append_assoc]
        exact hwoken
      · intro id hid hid'
        obtain ⟨hne, hid'⟩ := not_or.mp (mt List.mem_cons.mpr hid')
        exact (hframe id hid hid').trans (hothers id hne)
    | send hq bytes hroom =>
      refine ⟨w :: sent, received, woken ++ [(w.thread, result)], ?_, hreceived, ?_, hnow hsentOrder, hlater hreceivedOrder, ?_⟩
      · rw [hq]
        exact congrArg (w :: ·) hsent
      · rw [List.append_assoc]
        exact hwoken
      · intro id hid hid'
        obtain ⟨hne, hid⟩ := not_or.mp (mt List.mem_cons.mpr hid)
        exact (hframe id hid hid').trans (hothers id hne)

/-- Settling a pipe serves both lines from the front. -/
theorem attends_settle (h : k.Placed L) {p : MessagePipe} (hget : k.objects.get? p.id = some (.messagePipe p))
    (memory : Memory) (buffer : List UInt8) (l : Line) :
    k.Attends (({ k with memory } : Kernel).settle { p with buffer }) p.id l := by
  have hn := h.nodup_waiting hget
  obtain ⟨sent, received, woken, hsent, hreceived, hwakings, hsentOrder, hreceivedOrder, hframe⟩ :=
    settleFor_wakes (k := { k with memory }) { p with buffer } (p.senders.length + p.receivers.length) hn fun id hmem => by
      obtain ⟨t, w, ht, hwait, -⟩ := h.waits hget hmem
      exact Option.isSome_iff_exists.mpr ⟨w, waitOf?_eq_some.mpr ⟨t, ht, hwait⟩⟩
  obtain ⟨off, hserves, -, -⟩ := Moves.settleFor_settles (k := { k with memory }) (A := fun _ => True) (fun _ _ => trivial)
    { p with buffer } (p.senders.length + p.receivers.length)
  unfold settle
  dsimp only
  generalize ({ k with memory } : Kernel).settleFor { p with buffer } (p.senders.length + p.receivers.length) = after at *
  obtain ⟨k₁, p'⟩ := after
  have hid : p'.id = p.id := by rw [show p' = _ from hserves.frame]
  have hattributes : p'.attributes = p.attributes := by rw [show p' = _ from hserves.frame]
  obtain ⟨hline, ha⟩ := line_put (k := k₁) (l := l) (.messagePipe p')
  rw [show (Object.messagePipe p').id = p.id from hid] at hline ha
  have hwoken : k.wokenUntil (k₁.put (.messagePipe p')) = (woken.map (·.1)).reverse := wokenUntil_eq hwakings
  rw [show (Object.messagePipe p).waiting = p.senders.threads ++ p.receivers.threads from rfl, hsent, hreceived,
    WaitQueue.threads_append, WaitQueue.threads_append] at hn
  -- Whoever stands behind those that are served, or on the other side, is none of them.
  have hrest : ∀ id ∈ p'.senders.threads ++ p'.receivers.threads,
      (k₁.put (.messagePipe p')).thread? id = k.thread? id := by
    intro id hmem
    have hout : id ∉ sent.threads ∧ id ∉ received.threads := by
      simp only [List.nodup_append, List.mem_append] at hn hmem
      grind
    have hqueued : id ∈ p.senders.threads ++ p.receivers.threads := by
      rw [hsent, hreceived, WaitQueue.threads_append, WaitQueue.threads_append]
      simp only [List.mem_append] at hmem ⊢
      tauto
    have hne : (Object.messagePipe p').id ≠ id := by
      intro heq
      obtain ⟨t, -, ht, -⟩ := h.waits hget hqueued
      rw [← heq, show (Object.messagePipe p').id = p.id from hid, thread?, ObjectTable.thread?_eq_bind, hget] at ht
      cases ht
    rw [thread?_put, if_neg hne]
    exact hframe id hout.1 hout.2
  have hserves : ∀ front : WaitQueue Unit, (Object.messagePipe p).line l = front ++ (Object.messagePipe p').line l →
      front.threads.Sublist (woken.map (·.1)).reverse → k.Attends (k₁.put (.messagePipe p')) p.id l := by
    intro front hfront horder
    refine .serves front ?_ (hwoken ▸ horder) (fun w hw => ?_) ?_
    · rw [hline, line_eq hget, hfront]
    · rw [hline] at hw
      exact hrest w.thread (Object.mem_waiting_of_mem_line hw)
    · rw [ha, attributes_eq hget]
      exact hattributes
  cases l with
  | senders =>
    refine hserves sent.line ((congrArg WaitQueue.line hsent).trans (WaitQueue.line_append ..)) ?_
    rw [WaitQueue.threads_line]
    exact hsentOrder
  | receivers =>
    refine hserves received.line ((congrArg WaitQueue.line hreceived).trans (WaitQueue.line_append ..)) ?_
    rw [WaitQueue.threads_line]
    exact hreceivedOrder
  | _ => exact hserves [] rfl (List.nil_sublist _)

theorem attends_trySendPipe (h : k.Placed L) : k.Attends (k.trySendPipe x r).kernel x l := by
  obtain ⟨k', e, hquiet, -, heq⟩ | ⟨p, memory, bytes, rfl, hget, -, heq⟩ := trySendPipe_cases k x r <;> rw [heq]
  · exact hquiet.toSameObjects.attends x l
  · exact attends_settle h hget memory (p.buffer ++ bytes) l

theorem attends_tryReceivePipe (h : k.Placed L) : k.Attends (k.tryReceivePipe x r).kernel x l := by
  obtain ⟨k', e, hquiet, -, heq⟩ | ⟨p, memory, amount, rfl, hget, heq⟩ := tryReceivePipe_cases k x r <;> rw [heq]
  · exact hquiet.toSameObjects.attends x l
  · exact attends_settle h hget memory (p.buffer.drop amount) l

/-- A caller that has to wait goes to the end of its line, or before those of lower priority. -/
theorem attends_blockOnPipe (hc : k.Coherent) (h : k.Placed L) :
    k.Attends (k.blockOnPipe x r timeoutAddress callbacks sending).kernel x l := by
  unfold blockOnPipe
  split
  · exact (Quiet.refl k).toSameObjects.attends x l
  next p hp =>
  obtain ⟨rfl, hget⟩ := ObjectTable.keyed_messagePipe? hp
  have hkind : (Object.messagePipe p).kind ≠ .thread := by simp [Object.kind]
  cases sending with
  | true =>
    refine attends_block (o := .messagePipe p) hc h hget hkind (fun _ => rfl) (fun _ => rfl) (fun _ => rfl) ?_
    cases l with
    | senders => exact Or.inl fun w => WaitQueue.line_enqueue p.attributes w p.senders
    | _ => exact Or.inr fun _ => rfl
  | false =>
    refine attends_block (o := .messagePipe p) hc h hget hkind (fun _ => rfl) (fun _ => rfl) (fun _ => rfl) ?_
    cases l with
    | receivers => exact Or.inl fun w => WaitQueue.line_enqueue p.attributes w p.receivers
    | _ => exact Or.inr fun _ => rfl

theorem attends_sendPipe (hc : k.Coherent) (h : k.Placed L) :
    k.Attends (k.sendPipe x r timeoutAddress callbacks).kernel x l := by
  unfold sendPipe
  split
  · next k' hfull =>
    obtain ⟨rfl, -⟩ := trySendPipe_full hfull
    exact attends_blockOnPipe hc h
  · exact attends_trySendPipe h

theorem attends_receivePipe (hc : k.Coherent) (h : k.Placed L) :
    k.Attends (k.receivePipe x r timeoutAddress callbacks).kernel x l := by
  unfold receivePipe
  split
  · next k' hempty =>
    obtain ⟨rfl, -⟩ := tryReceivePipe_empty hempty
    exact attends_blockOnPipe hc h
  · exact attends_tryReceivePipe h

/-! ### Semaphores, event flags and mutexes at once -/

theorem attends_acquire {s s' : Semaphore} {need : Int32} (hget : k.objects.get? s.id = some (.semaphore s))
    (ha : s.acquire? need = some s') (l : Line) : k.Attends (k.put (.semaphore s')) s.id l := by
  obtain ⟨-, -, rfl⟩ := Semaphore.acquire?_eq_some.mp ha
  exact attends_put (o := .semaphore s) _ hget (by simp [Object.kind]) (Quiet.refl _).toSameObjects rfl rfl
    (by cases l <;> rfl) rfl

theorem attends_waitSemaphore (hc : k.Coherent) (h : k.Placed L) :
    k.Attends (k.waitSemaphore x need timeoutAddress callbacks).kernel x l := by
  have hrefuse := (Quiet.refl k).toSameObjects.attends x l
  unfold waitSemaphore
  split
  · exact hrefuse
  next s hs =>
  obtain ⟨rfl, hget⟩ := ObjectTable.keyed_semaphore? hs
  split
  · exact hrefuse
  split
  · next s' ha => exact attends_acquire hget ha l
  · refine attends_block (o := .semaphore s) hc h hget (by simp [Object.kind]) (fun _ => rfl) (fun _ => rfl)
      (fun _ => rfl) ?_
    cases l with
    | semaphore => exact Or.inl fun w => WaitQueue.line_enqueue s.attributes w s.waiters
    | _ => exact Or.inr fun _ => rfl

theorem attends_pollSemaphore : k.Attends (k.pollSemaphore x need).kernel x l := by
  have hrefuse := (Quiet.refl k).toSameObjects.attends x l
  unfold pollSemaphore
  split
  · exact hrefuse
  next s hs =>
  obtain ⟨rfl, hget⟩ := ObjectTable.keyed_semaphore? hs
  split
  · exact hrefuse
  split
  · next s' ha => exact attends_acquire hget ha l
  · exact hrefuse

theorem attends_flagPut {f : EventFlag} {pattern : UInt32} (hget : k.objects.get? f.id = some (.eventFlag f))
    (h : SameObjects (k.put (.eventFlag { f with pattern })) k') (l : Line) : k.Attends k' f.id l :=
  attends_put (o := .eventFlag f) _ hget (by simp [Object.kind]) h rfl rfl (by cases l <;> rfl) rfl

theorem attends_clearEventFlag : k.Attends (k.clearEventFlag x bits).kernel x l := by
  unfold clearEventFlag
  split
  · exact (Quiet.refl k).toSameObjects.attends x l
  next f hf =>
  obtain ⟨rfl, hget⟩ := ObjectTable.keyed_eventFlag? hf
  exact attends_flagPut hget (Quiet.refl _).toSameObjects l

theorem attends_waitEventFlag (hc : k.Coherent) (h : k.Placed L) (r : EventRequest) :
    k.Attends (k.waitEventFlag x r timeoutAddress callbacks).kernel x l := by
  unfold waitEventFlag
  split
  · exact (Quiet.refl k).toSameObjects.attends x l
  next f hf =>
  obtain ⟨hget, -, -⟩ := admitEventRequest_eq_ok hf
  obtain rfl : f.id = x := ObjectTable.id_of_get? hget
  split
  · exact attends_flagPut hget (Quiet.withMemory _ _).toSameObjects l
  · refine attends_block (o := .eventFlag f) hc h hget (by simp [Object.kind]) (fun _ => rfl) (fun _ => rfl)
      (fun _ => rfl) ?_
    cases l with
    | eventFlag => exact Or.inl fun w => WaitQueue.line_enqueue f.attributes w f.waiters
    | _ => exact Or.inr fun _ => rfl

theorem attends_pollEventFlag (r : EventRequest) : k.Attends (k.pollEventFlag x r).kernel x l := by
  unfold pollEventFlag
  split
  · exact (Quiet.refl k).toSameObjects.attends x l
  next f hf =>
  obtain ⟨hget, -, -⟩ := admitEventRequest_eq_ok hf
  obtain rfl : f.id = x := ObjectTable.id_of_get? hget
  -- The pattern is written out, whatever becomes of the poll.
  have hwritten : ∀ k₁ : Kernel, ((k₁.withMemory (k₁.memory.writeOptional r.outAddress f.pattern)).andThen fun _ k =>
      if r.matched f.pattern then k.done () else k.refuse .eventFlagCondition).kernel =
        (k₁.withMemory (k₁.memory.writeOptional r.outAddress f.pattern)).kernel := by
    intro k₁
    obtain ⟨e, -, heq, -⟩ | ⟨a, -, heq⟩ := Reply.kernel_andThen
      (k₁.withMemory (k₁.memory.writeOptional r.outAddress f.pattern)) _ <;> rw [heq]
    split <;> rfl
  rw [hwritten]
  split
  · exact attends_flagPut hget (Quiet.withMemory _ _).toSameObjects l
  · exact (Quiet.withMemory k _).toSameObjects.attends f.id l

theorem attends_lockPut {m m₀ : Mutex} {count : Int32}
    (ha : k.attemptLock x count = .ok (m₀, .acquired m)) (l : Line) : k.Attends (k.put (.mutex m)) x l := by
  obtain ⟨thread, hget, -, -, hlock⟩ := attemptLock_eq_ok ha
  obtain rfl : m₀.id = x := ObjectTable.id_of_get? hget
  have hm : m = { m₀ with owner := m.owner, lockCount := m.lockCount } := by
    obtain ⟨-, rfl⟩ | ⟨-, -, -, rfl⟩ := Mutex.tryLock_acquired hlock <;> rfl
  exact attends_put (o := .mutex m₀) (.mutex m) hget (by simp [Object.kind]) (Quiet.refl _).toSameObjects
    (by rw [hm]; rfl) rfl (by rw [hm]; cases l <;> rfl) (by rw [hm]; rfl)

theorem attends_lockMutex (hc : k.Coherent) (h : k.Placed L) :
    k.Attends (k.lockMutex x count timeoutAddress callbacks).kernel x l := by
  unfold lockMutex
  split
  · exact (Quiet.refl k).toSameObjects.attends x l
  · next ha => exact attends_lockPut ha l
  · next m ha =>
    obtain ⟨thread, hget, -⟩ := attemptLock_eq_ok ha
    obtain rfl : m.id = x := ObjectTable.id_of_get? hget
    refine attends_block (o := .mutex m) hc h hget (by simp [Object.kind]) (fun _ => rfl) (fun _ => rfl)
      (fun _ => rfl) ?_
    cases l with
    | mutex => exact Or.inl fun w => WaitQueue.line_enqueue m.attributes w m.waiters
    | _ => exact Or.inr fun _ => rfl

theorem attends_tryLockMutex : k.Attends (k.tryLockMutex x count).kernel x l := by
  have hrefuse := (Quiet.refl k).toSameObjects.attends x l
  unfold tryLockMutex
  split
  · exact hrefuse
  · next ha => exact attends_lockPut ha l
  · exact hrefuse

/-- **What a call on an object does to its queues.** -/
theorem attends_perform (hc : k.Coherent) (h : k.Placed L) {call : Syscall} {kind : ObjectKind}
    (hcall : call.object? = some (kind, x)) : k.Attends (k.perform call).kernel x l := by
  cases call with
  | signalSemaphore y amount => cases hcall; exact attends_signalSemaphore h
  | waitSemaphore y need timeoutAddress callbacks =>
    cases hcall; exact attends_waitSemaphore hc h
  | pollSemaphore y need => cases hcall; exact attends_pollSemaphore
  | cancelSemaphore y count waitingAddress => cases hcall; exact attends_cancelSemaphore
  | setEventFlag y bits => cases hcall; exact attends_setEventFlag
  | clearEventFlag y bits => cases hcall; exact attends_clearEventFlag
  | waitEventFlag y r timeoutAddress callbacks =>
    cases hcall; exact attends_waitEventFlag hc h r
  | pollEventFlag y r => cases hcall; exact attends_pollEventFlag r
  | cancelEventFlag y pattern waitingAddress => cases hcall; exact attends_cancelEventFlag
  | lockMutex y count timeoutAddress callbacks =>
    cases hcall; exact attends_lockMutex hc h
  | tryLockMutex y count => cases hcall; exact attends_tryLockMutex
  | unlockMutex y count => cases hcall; exact attends_unlockMutex h
  | cancelMutex y count waitingAddress => cases hcall; exact attends_cancelMutex
  | sendPipe y r timeoutAddress callbacks => cases hcall; exact attends_sendPipe hc h
  | trySendPipe y r => cases hcall; exact attends_trySendPipe h
  | receivePipe y r timeoutAddress callbacks =>
    cases hcall; exact attends_receivePipe hc h
  | tryReceivePipe y r => cases hcall; exact attends_tryReceivePipe h
  | cancelPipe y sendersAddress receiversAddress =>
    cases hcall; exact attends_cancelPipe
  | _ => cases hcall

/-! ### Operations on other objects -/

/-- **An operation on other objects at most takes threads off a queue.** -/
theorem line_after_other {op : Operation} (hn : k.started.Nodup) (hop : ∀ kind, op.object? ≠ some (kind, x)) (l : Line) :
    ((k.after op).line x l).Sublist (k.line x l) ∧
      ((k.after op).line x l ≠ [] → (k.after op).attributes x = k.attributes x) := by
  obtain ⟨-, L, hmoves, -⟩ := moves_after k op hn
  refine hmoves.preserves (P := fun s => (s.kernel.line x l).Sublist (k.line x l) ∧
    (s.kernel.line x l ≠ [] → s.kernel.attributes x = k.attributes x)) ?_ ⟨List.Sublist.refl _, fun _ => rfl⟩
  rintro label s s' hl hm ⟨hline, ha⟩
  have hempty : s'.kernel.line x l = [] → (s'.kernel.line x l).Sublist (k.line x l) ∧
      (s'.kernel.line x l ≠ [] → s'.kernel.attributes x = k.attributes x) :=
    fun heq => ⟨heq ▸ List.nil_sublist _, fun hne => absurd heq hne⟩
  cases ho' : s'.kernel.objects.get? x with
  | none => exact hempty (by rw [Kernel.line, ho']; rfl)
  | some o' =>
    have hline' := line_eq ho' l
    by_cases hne : o'.line l = []
    · exact hempty (hline'.trans hne)
    obtain ⟨hthread, hcallback⟩ := Object.kind_of_line_ne hne
    obtain ⟨o, ho, hstep⟩ | ⟨rfl, hnew, -⟩ := hm.object ho' hthread
    · have hspares : ¬ label.Changes o'.kind o'.id := by
        rw [ObjectTable.id_of_get? ho']
        exact hl.not_changes (hop _) hthread hcallback
      obtain ⟨ids, rfl⟩ := hstep.without hspares
      obtain ⟨hsub, hsame⟩ := o.line_without ids l
      rw [line_eq ho] at hline ha
      rw [hline', attributes_eq ho', hsame, ← attributes_eq ho]
      exact ⟨hsub.trans hline, fun hne => ha fun heq => hne (List.sublist_nil.mp (heq ▸ hsub))⟩
    · exact absurd (hnew.line l) hne

end Kernel
end GuestKernel
