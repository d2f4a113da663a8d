/-
# What a move does to a thread

Each kind of move changes a thread in one way or not at all. `Thread.Step l` lists the ways, with the label of the move
that makes the change where it matters, and `Move.thread` says that there are no others: a thread that is registered
after a move was registered before and took a step, or the move made it. Only a dead thread is ever taken out of the
table (`Move.thread_stays`).

| step | what changes |
| --- | --- |
| `edit` | wakeups, callbacks and the request to run them |
| `joined` | the threads that joined it |
| `arrange` | priority and status, within the same stage of life |
| `park`, `wake` | a wait begins or ends |
| `launch`, `die`, `strip` | the thread starts, exits, and loses what it held |

Source: specification, 4.2.
-/

import GuestKernel.Proofs.Coherence
import GuestKernel.Proofs.ObjectMoves
import GuestKernel.Proofs.Waking

namespace GuestKernel

/-- The change of a thread's status by a move that puts it on hold or lets it go on, or that gives it the processor or
takes it away. -/
def Label.Turns (l : Label) (id : ThreadId) (status status' : ThreadStatus) : Prop :=
  match l with
  | preempt => status = .onlyRunning ∧ status' = .onlyReady
  | run | interrupt _ => status = .onlyReady ∧ status' = .onlyRunning
  | hold x => x = id ∧ (status = .onlyReady ∧ status' = .onlySuspended ∨
      status = .onlyWaiting ∧ status' = .waitSuspended)
  | unhold x => x = id ∧ (status = .onlySuspended ∧ status' = .onlyReady ∨
      status = .waitSuspended ∧ status' = .onlyWaiting)
  | _ => False

theorem Label.Turns.schedules {l : Label} {id : ThreadId} {status status' : ThreadStatus}
    (h : l.Turns id status status') : l.Schedules := by
  cases l <;> first | exact h | trivial

/-- One change of a thread by a move with the label. -/
inductive Thread.Step (l : Label) : Thread → Thread → Prop where
  | same (t : Thread) : Step l t t
  | edit {t t' : Thread} (h : t.SameLife t') (hl : l = .edit t t') : Step l t t'
  | joined {t : Thread} {exitWaiters : List ThreadId} (h : exitWaiters ⊆ t.exitWaiters ∨ t.isDormant = false) :
      Step l t { t with exitWaiters }
  | arrange {t : Thread} {status : ThreadStatus} {priority : UInt32} (hw : status.waiting = t.status.waiting)
      (hs : status.stopped = t.status.stopped) (hd : status.dead = t.status.dead)
      (hl : status = t.status ∨ l.Turns t.id t.status status)
      (hp : priority = t.priority ∨ l = .reprioritise t.id priority) : Step l t { t with status, priority }
  | park {t : Thread} {w : Wait} (hl : l = .park t.id w) : Step l t (t.park w)
  | wake {t : Thread} {w : Wait} {result : Int32} (hl : l = .wake t.id result) (hw : t.wait = some w) :
      Step l t (t.unpark result)
  | launch {t : Thread} {context : ContextId} (hl : l = .launch t.id) (hs : t.status = .onlyStopped) :
      Step l t { t with context := some context, status := .onlyReady }
  | die {t : Thread} {exitCode : Int32} (hl : l = .retire t.id exitCode) (hs : t.status.dead = false) :
      Step l t (t.die exitCode)
  | strip {t : Thread} (hl : l = .strip t.id) (hs : t.status.dead = true) : Step l t t.strip

namespace Kernel

variable {k k' : Kernel} {l : Label} {t u t' : Thread} {x : ThreadId} {priority : UInt32} {id : ThreadId}

/-- A thread is stored after a step, and no other thread is touched. -/
theorem step_putThread (hk : k'.objects = (k.putThread u).objects) (ht : k.thread? t.id = some t) (hid : u.id = t.id)
    (hstep : t.Step l u) (h : k'.thread? x = some t') : ∃ t, k.thread? x = some t ∧ t.Step l t' := by
  rw [thread?, hk] at h
  replace h := (thread?_putThread u x).symm.trans h
  split at h
  · next hx =>
    cases h
    exact ⟨t, by rw [← hx, hid, ht], hstep⟩
  · exact ⟨t', h, .same t'⟩

/-- Leaving a queue is a step of the thread that was joined. -/
theorem step_detach (id : ThreadId) (w : Wait) (h : (k.detach id w).thread? x = some t') :
    ∃ t, k.thread? x = some t ∧ t.Step l t' := by
  obtain heq | ⟨t, ht, -, heq⟩ := thread?_detach k id w x <;> rw [heq] at h
  · exact ⟨t', h, .same t'⟩
  · cases h
    exact ⟨t, ht, .joined (Or.inl List.filter_sublist.subset)⟩

theorem step_retire {exitCode : Int32} (ht : k.thread? t.id = some t) (hs : t.status.dead = false)
    (h : (k.retire t exitCode).thread? x = some t') : ∃ u, k.thread? x = some u ∧ u.Step (.retire t.id exitCode) t' := by
  by_cases hx : x = t.id
  · subst hx
    rw [thread?_retire] at h
    cases h
    exact ⟨t, ht, .die rfl hs⟩
  · have hfell : (k.fell t exitCode).thread? x = k.thread? x := thread?_putThread_of_ne (t.die exitCode) hx
    obtain ⟨-, heq⟩ | ⟨w, -, heq⟩ := retire_eq k t exitCode <;> rw [heq] at h
    · exact ⟨t', hfell.symm.trans h, .same t'⟩
    · obtain ⟨u, hu, hstep⟩ := step_detach (l := .retire t.id exitCode) t.id w h
      exact ⟨u, hfell.symm.trans hu, hstep⟩

theorem step_preempt (h : k.preempt.thread? x = some t') : ∃ t, k.thread? x = some t ∧ t.Step .preempt t' := by
  unfold preempt at h
  split at h
  · exact ⟨t', h, .same t'⟩
  · dsimp only at h
    split at h
    · exact ⟨t', h, .same t'⟩
    · next t ht =>
      have hid := id_of_thread? ht
      subst hid
      split at h
      · next hs =>
        refine step_putThread (t := t) (u := { t with status := .onlyReady }) ?_ ht rfl ?_ h
        · rw [objects_schedule]
          rfl
        · exact .arrange (by rw [hs]; rfl) (by rw [hs]; rfl) (by rw [hs]; rfl) (Or.inr ⟨hs, rfl⟩) (Or.inl rfl)
      · exact ⟨t', h, .same t'⟩

/-- Whoever gets the processor takes the step to it. -/
theorem step_run (hc : k.Coherent) (h : (k.runFirst k.ready.entries).2.thread? x = some t') :
    ∃ t, k.thread? x = some t ∧ t.Step .run t' := by
  cases he : k.ready.entries with
  | nil =>
    rw [he] at h
    exact ⟨t', h, .same t'⟩
  | cons e rest =>
    obtain ⟨t, ht, hs, -⟩ := hc.ready.sound e (he ▸ List.mem_cons_self ..)
    obtain ⟨context, hcontext⟩ := Option.isSome_iff_exists.mp
      ((hc.threads e.thread t ht).context (by unfold Thread.isDormant; rw [hs]; rfl))
    rw [he, runFirst_cons ht hcontext] at h
    refine step_putThread (t := t) (u := { t with status := .onlyRunning }) rfl (thread?_id ht) rfl ?_ h
    exact .arrange (by rw [hs]; rfl) (by rw [hs]; rfl) (by rw [hs]; rfl) (Or.inr ⟨hs, rfl⟩) (Or.inl rfl)

theorem step_interrupt {d : Delivery} (ht : k.thread? t.id = some t) (h : (k.interrupt t d).thread? x = some t') :
    ∃ t, k.thread? x = some t ∧ t.Step (.interrupt d) t' := by
  unfold interrupt at h
  dsimp only at h
  split at h
  · next hs =>
    refine step_putThread (t := t) (u := { t with status := .onlyRunning }) rfl ht rfl ?_ h
    exact .arrange (by rw [hs]; rfl) (by rw [hs]; rfl) (by rw [hs]; rfl) (Or.inr ⟨hs, rfl⟩) (Or.inl rfl)
  · exact ⟨t', h, .same t'⟩

/-- A thread that is put on hold takes the step of that. -/
theorem step_hold (hc : k.Coherent) (ht : k.thread? t.id = some t) (hcur : k.current ≠ some t.id)
    (hd : t.isDormant = false) (hs : t.status.suspended = false) (h : (k.hold t).thread? x = some t') :
    ∃ u, k.thread? x = some u ∧ u.Step (.hold t.id) t' := by
  refine step_putThread (t := t) (u := { t with status := t.status.suspend }) rfl ht rfl ?_ h
  rcases (hc.threads t.id t ht).of_active hd hs with hstatus | hstatus | hstatus
  · rw [hstatus]
    exact .arrange (by rw [hstatus]; rfl) (by rw [hstatus]; rfl) (by rw [hstatus]; rfl)
      (Or.inr ⟨rfl, Or.inl ⟨hstatus, rfl⟩⟩) (Or.inl rfl)
  · exact absurd (hc.running t.id t ht hstatus) hcur
  · rw [hstatus]
    exact .arrange (by rw [hstatus]; rfl) (by rw [hstatus]; rfl) (by rw [hstatus]; rfl)
      (Or.inr ⟨rfl, Or.inr ⟨hstatus, rfl⟩⟩) (Or.inl rfl)

theorem step_unhold (hc : k.Coherent) (ht : k.thread? t.id = some t) (hs : t.status.suspended = true)
    (h : (k.unhold t).thread? x = some t') : ∃ u, k.thread? x = some u ∧ u.Step (.unhold t.id) t' := by
  unfold unhold at h
  dsimp only at h
  rcases (hc.threads t.id t ht).of_suspended hs with hstatus | hstatus
  · rw [if_pos (by rw [hstatus]; rfl)] at h
    refine step_putThread (t := t) (u := { t with status := .onlyReady }) ?_ ht rfl ?_ h
    · rw [objects_schedule]
    · exact .arrange (by rw [hstatus]; rfl) (by rw [hstatus]; rfl) (by rw [hstatus]; rfl)
        (Or.inr ⟨rfl, Or.inl ⟨hstatus, rfl⟩⟩) (Or.inl rfl)
  · rw [if_neg (by rw [hstatus]; decide)] at h
    refine step_putThread (t := t) (u := { t with status := { t.status with suspended := false } }) rfl ht rfl ?_ h
    exact .arrange rfl rfl rfl (Or.inr ⟨rfl, Or.inr ⟨hstatus, by rw [hstatus]; rfl⟩⟩) (Or.inl rfl)

theorem step_reprioritise (ht : k.thread? t.id = some t) (h : (k.reprioritise t priority).thread? x = some t') :
    ∃ u, k.thread? x = some u ∧ u.Step (.reprioritise t.id priority) t' := by
  refine step_putThread (t := t) (u := { t with priority }) ?_ ht rfl
    (.arrange rfl rfl rfl (Or.inl rfl) (Or.inr rfl)) h
  unfold reprioritise
  dsimp only
  split
  · rw [objects_schedule]
  · rfl

/-- A woken thread takes the step of a wake, and others none. -/
theorem step_wake {result : Int32} (h : (k.wake id result).thread? x = some t') :
    ∃ t, k.thread? x = some t ∧ t.Step (.wake id result) t' := by
  rw [thread?_wake] at h
  split at h
  · next hx =>
    obtain ⟨t, ht, rfl⟩ := Option.map_eq_some_iff.mp h
    refine ⟨t, ht, ?_⟩
    cases hw : t.wait with
    | none =>
      rw [Thread.woken_of_idle hw]
      exact .same t
    | some w =>
      rw [Thread.woken_of_waiting hw]
      exact .wake (by rw [id_of_thread? ht, hx]) hw
  · exact ⟨t', h, .same t'⟩

theorem step_enqueue {o o' : Object} {w : Wait} (ho : k.objects.get? o.id = some o)
    (hq : o.Enqueues id priority w o') (h : (k.put o').thread? x = some t') :
    ∃ t, k.thread? x = some t ∧ t.Step l t' := by
  by_cases hkind : o.kind = .thread
  · cases hq with
    | @join target _ _ _ _ _ hdormant =>
      exact step_putThread (t := target) (u := { target with exitWaiters := target.exitWaiters ++ [id] }) rfl
        (ObjectTable.thread?_eq_some.mpr ho) rfl (.joined (Or.inr hdormant)) h
    | _ => cases hkind
  · rw [thread?_put_of_kind_ne o' ho hkind hq.id_eq hq.kind_eq] at h
    exact ⟨t', h, .same t'⟩

end Kernel

/-- **A thread takes a step with every move**, if the move did not make it. -/
theorem Move.thread {l : Label} {s s' : Stage} (hm : Move l s s') (hc : s.kernel.Coherent) {x : ThreadId} {t' : Thread}
    (h : s'.kernel.thread? x = some t') : (∃ t, s.kernel.thread? x = some t ∧ t.Step l t') ∨
      (l = .create (.thread t') ∧ (Object.thread t').IsNew ∧ t'.id = s.kernel.nextId) := by
  cases hm with
  | quiet hq | load hq => exact Or.inl ⟨t', (hq.thread? x).symm.trans h, .same t'⟩
  | resource hq | reserve hq => exact Or.inl ⟨t', (hq.thread? x).symm.trans h, .same t'⟩
  | @create k L o hid hnew =>
    have hput : ({ k with objects := k.objects.skipId.put o } : Kernel).thread? x =
        if o.id = x then o.thread? else k.thread? x := ObjectTable.thread?_put o x
    replace h := hput.symm.trans h
    split at h
    · rw [Object.thread?_eq_some.mp h] at hid hnew ⊢
      exact Or.inr ⟨rfl, hnew, hid⟩
    · exact Or.inl ⟨t', h, .same t'⟩
  | @erase k o ho hkind =>
    have herase : ({ k with objects := k.objects.erase o.id } : Kernel).thread? x =
        if o.id = x then none else k.thread? x := ObjectTable.thread?_erase ..
    replace h := herase.symm.trans h
    split at h
    · cases h
    · exact Or.inl ⟨t', h, .same t'⟩
  | @change k o o' off ho hchange =>
    have hput := Kernel.thread?_put_of_kind_ne o' ho hchange.kind_ne_thread hchange.id_eq hchange.kind_eq x
    exact Or.inl ⟨t', hput.symm.trans h, .same t'⟩
  | enqueue ho ht hw hq => exact Or.inl (Kernel.step_enqueue ho hq h)
  | @edit k L t u ht hlife =>
    exact Or.inl (Kernel.step_putThread rfl ht (by rw [hlife]) (.edit hlife rfl) h)
  | @launch k L t registers ht hs =>
    have hobjects := Kernel.objects_launch (k.allocateContext t.entry registers) t k.contexts.freshId
    exact Or.inl (Kernel.step_putThread hobjects ht rfl (.launch rfl hs) h)
  | @park k t w hd hcur ht => exact Or.inl (Kernel.step_putThread (u := t.park w) rfl ht rfl (.park rfl) h)
  | doze => exact Or.inl ⟨t', h, .same t'⟩
  | detach => exact Or.inl (Kernel.step_detach _ _ h)
  | wake => exact Or.inl (Kernel.step_wake h)
  | retire ht hs => exact Or.inl (Kernel.step_retire ht hs h)
  | @strip k L t contexts ht hs =>
    exact Or.inl (Kernel.step_putThread (u := t.strip) rfl ht rfl (.strip rfl hs) h)
  | @bury k L t ht hs =>
    have herase : ({ k with objects := k.objects.erase t.id, started := k.started.filter (· != t.id) } :
        Kernel).thread? x = if t.id = x then none else k.thread? x := ObjectTable.thread?_erase ..
    replace h := herase.symm.trans h
    split at h
    · cases h
    · exact Or.inl ⟨t', h, .same t'⟩
  | reprioritise ht => exact Or.inl (Kernel.step_reprioritise ht h)
  | hold ht hcur hd hs => exact Or.inl (Kernel.step_hold hc ht hcur hd hs h)
  | unhold ht hs => exact Or.inl (Kernel.step_unhold hc ht hs h)
  | preempt => exact Or.inl (Kernel.step_preempt h)
  | run => exact Or.inl (Kernel.step_run hc h)
  | interrupt hd hcur ht => exact Or.inl (Kernel.step_interrupt ht h)
  | endDelivery => exact Or.inl ⟨t', h, .same t'⟩
  | dropDelivery => exact Or.inl ⟨t', h, .same t'⟩

namespace Kernel

variable {k k' : Kernel} {t u : Thread} {x : ThreadId}

/-- A thread that another one joined may lose it when the other one dies. -/
theorem thread?_retire_of_ne (hu : k.thread? x = some u) (hx : x ≠ t.id) (exitCode : Int32) :
    ∃ exitWaiters, (k.retire t exitCode).thread? x = some { u with exitWaiters } := by
  have hfell : (k.fell t exitCode).thread? x = some u := (thread?_putThread_of_ne (t.die exitCode) hx).trans hu
  obtain ⟨-, heq⟩ | ⟨w, -, heq⟩ := retire_eq k t exitCode <;> rw [heq]
  · exact ⟨u.exitWaiters, hfell⟩
  · obtain hsame | ⟨u', hu', -, hleft⟩ := thread?_detach (k.fell t exitCode) t.id w x
    · exact ⟨u.exitWaiters, hsame.trans hfell⟩
    · obtain rfl := Option.some.inj (hfell.symm.trans hu')
      exact ⟨_, hleft⟩

theorem stays_putThread (hk : k'.objects = (k.putThread u).objects) (ht : k.thread? x = some t) :
    ∃ t', k'.thread? x = some t' := by
  rw [thread?, hk]
  show ∃ t', (k.putThread u).thread? x = some t'
  rw [thread?_putThread]
  split
  · exact ⟨u, rfl⟩
  · exact ⟨t, ht⟩

/-- What changes threads only keeps them registered. -/
theorem OnlyThreads.stays (h : OnlyThreads k k') (ht : k.thread? x = some t) : ∃ t', k'.thread? x = some t' := by
  have hget := ObjectTable.thread?_eq_some.mp ht
  obtain heq | ⟨-, t', -, ht', -⟩ := h.objects x
  · exact ⟨t, ObjectTable.thread?_eq_some.mpr (heq.trans hget)⟩
  · exact ⟨t', ObjectTable.thread?_eq_some.mpr ht'⟩

end Kernel

/-- **A thread stays registered with every move** but that which buries it, when it is dead. -/
theorem Move.thread_stays {l : Label} {s s' : Stage} (hm : Move l s s')
    (hfresh : l.Fresh s.kernel) {x : ThreadId} {t : Thread} (ht : s.kernel.thread? x = some t) :
    (∃ t', s'.kernel.thread? x = some t') ∨ t.status.dead = true ∧ l = .bury x := by
  have hget := ObjectTable.thread?_eq_some.mp ht
  have honly := hm.onlyThreads
  cases hm with
  | reserve hq => exact Or.inl ⟨t, (hq.thread? x).trans ht⟩
  | @create k L o =>
    have hput : ({ k with objects := k.objects.skipId.put o } : Kernel).thread? x =
        if o.id = x then o.thread? else k.thread? x := ObjectTable.thread?_put o x
    refine Or.inl ⟨t, hput.trans ((if_neg ?_).trans ht)⟩
    rintro rfl
    cases (hfresh o rfl).symm.trans hget
  | @erase k o ho hkind =>
    have herase : ({ k with objects := k.objects.erase o.id } : Kernel).thread? x =
        if o.id = x then none else k.thread? x := ObjectTable.thread?_erase ..
    refine Or.inl ⟨t, herase.trans ((if_neg ?_).trans ht)⟩
    rintro rfl
    obtain rfl := Option.some.inj (ho.symm.trans hget)
    exact hkind rfl
  | @change k o o' off ho hchange =>
    have hput := Kernel.thread?_put_of_kind_ne o' ho hchange.kind_ne_thread hchange.id_eq hchange.kind_eq x
    exact Or.inl ⟨t, hput.trans ht⟩
  | @enqueue k o o' u _ ho _ _ hq =>
    by_cases hkind : o.kind = .thread
    · cases hq with
      | @join target =>
        exact Or.inl (Kernel.stays_putThread
          (u := { target with exitWaiters := target.exitWaiters ++ [u.id] }) rfl ht)
      | _ => cases hkind
    · exact Or.inl ⟨t, (Kernel.thread?_put_of_kind_ne o' ho hkind hq.id_eq hq.kind_eq x).trans ht⟩
  | @launch k L u registers =>
    exact Or.inl (Kernel.stays_putThread (Kernel.objects_launch (k.allocateContext u.entry registers) u _) ht)
  | @detach k u w =>
    obtain heq | ⟨t', -, -, heq⟩ := Kernel.thread?_detach k u.id w x
    · exact Or.inl ⟨t, heq.trans ht⟩
    · exact Or.inl ⟨_, heq⟩
  | @retire k u exitCode =>
    by_cases hx : x = u.id
    · subst hx
      exact Or.inl ⟨_, Kernel.thread?_retire k u exitCode⟩
    · obtain ⟨exitWaiters, hstays⟩ := Kernel.thread?_retire_of_ne ht hx exitCode
      exact Or.inl ⟨_, hstays⟩
  | @strip k L u => exact Or.inl (Kernel.stays_putThread (u := u.strip) rfl ht)
  | @bury k L u hu hd =>
    by_cases hx : u.id = x
    · subst hx
      obtain rfl := Option.some.inj (hu.symm.trans ht)
      exact Or.inr ⟨hd, rfl⟩
    · have herase : ({ k with objects := k.objects.erase u.id, started := k.started.filter (· != u.id) } :
          Kernel).thread? x = if u.id = x then none else k.thread? x := ObjectTable.thread?_erase ..
      exact Or.inl ⟨t, herase.trans ((if_neg hx).trans ht)⟩
  | _ => exact Or.inl ((honly trivial).stays ht)

namespace Thread.Step

variable {l : Label} {t t' : Thread}

/-- Whoever is alive was alive. -/
theorem dead_eq_false (h : t.Step l t') (hd : t'.status.dead = false) : t.status.dead = false := by
  cases h with
  | same | joined | park | wake | strip => exact hd
  | arrange _ _ hdead => exact hdead.symm.trans hd
  | edit hlife =>
    rw [hlife] at hd
    exact hd
  | launch _ hs =>
    rw [hs]
    rfl
  | die => cases hd

/-- A step ends a wait, or begins the one that it is for. -/
theorem wait_eq (h : t.Step l t') : t'.wait = t.wait ∨ t'.wait = none ∨ ∃ w, l = .park t.id w := by
  cases h with
  | same | joined | arrange | launch | strip => exact Or.inl rfl
  | edit hlife => exact Or.inl (by rw [hlife])
  | park hl => exact Or.inr (Or.inr ⟨_, hl⟩)
  | wake | die => exact Or.inr (Or.inl rfl)

/-- A wait goes on with every step but the wake-up, unless the thread dies. -/
theorem waits_on {w : Wait} (h : t.Step l t') (hsound : t.Sound)
    (hw : t.wait = some w) (hwake : ∀ result, l ≠ .wake t.id result) (hpark : ∀ w, l ≠ .park t.id w) :
    t'.status.dead = true ∨ t'.wait = some w := by
  cases h with
  | same | joined | arrange | strip => exact Or.inr hw
  | edit hlife => exact Or.inr (by rw [hlife]; exact hw)
  | park hl => exact absurd hl (hpark _)
  | wake hl => exact absurd hl (hwake _)
  | launch _ hs => cases (hsound.wait_eq_none (by rw [hs]; rfl)).symm.trans hw
  | die => exact Or.inl rfl

/-- The processor changes hands without regard to waits and contexts. -/
theorem keeps_wait (h : t.Step l t') (hl : l.Dispatches) : t'.wait = t.wait ∧ t'.context = t.context := by
  cases h with
  | same | joined | arrange => exact ⟨rfl, rfl⟩
  | edit hlife =>
    rw [hlife]
    exact ⟨rfl, rfl⟩
  | park hpark | wake hpark | launch hpark | die hpark | strip hpark =>
    rw [hpark] at hl
    cases hl

/-- **A move that schedules nobody, ends a thread or takes one off a queue leaves a thread its status**, unless it ends
the thread or its wait. -/
theorem rests_or_dies (h : t.Step l t')
    (hl : l.Schedules → (∃ id exitCode, l = .retire id exitCode) ∨ ∃ id w, l = .detach id w) :
    (t'.status = t.status ∧ t'.wait = t.wait) ∨ ((∃ w, t.wait = some w) ∧ ∃ result, l = .wake t.id result ∧
      t' = t.unpark result) ∨ ∃ exitCode, l = .retire t.id exitCode ∧ t' = t.die exitCode := by
  cases h with
  | same | joined | strip => exact Or.inl ⟨rfl, rfl⟩
  | edit hlife => exact Or.inl (by rw [hlife]; exact ⟨rfl, rfl⟩)
  | arrange _ _ _ hstatus =>
    refine Or.inl ⟨hstatus.resolve_right fun hturns => ?_, rfl⟩
    obtain ⟨id, exitCode, rfl⟩ | ⟨id, w, rfl⟩ := hl hturns.schedules <;> exact hturns
  | wake hwake hw => exact Or.inr (Or.inl ⟨⟨_, hw⟩, _, hwake, rfl⟩)
  | die hlabel => exact Or.inr (Or.inr ⟨_, hlabel, rfl⟩)
  | park hlabel | launch hlabel =>
    subst hlabel
    obtain ⟨id, exitCode, heq⟩ | ⟨id, w, heq⟩ := hl trivial <;> cases heq

/-- Whoever is dead was dead, or has just died. -/
theorem dead_of_dead (h : t.Step l t') (hd : t'.status.dead = true) :
    t.status.dead = true ∨ ∃ exitCode, l = .retire t.id exitCode := by
  cases h with
  | same | joined | park | wake | strip => exact Or.inl hd
  | arrange _ _ hdead => exact Or.inl (hdead.symm.trans hd)
  | edit hlife =>
    rw [hlife] at hd
    exact Or.inl hd
  | launch => cases hd
  | die hl => exact Or.inr ⟨_, hl⟩

/-- Whoever is dead stays so, with the same exit code. -/
theorem stays_dead (h : t.Step l t') (hd : t.status.dead = true) :
    t'.status.dead = true ∧ t'.exitCode = t.exitCode := by
  cases h with
  | same | joined | park | wake | strip => exact ⟨hd, rfl⟩
  | arrange _ _ hdead => exact ⟨hdead.trans hd, rfl⟩
  | edit hlife =>
    rw [hlife]
    exact ⟨hd, rfl⟩
  | launch _ hs =>
    rw [hs] at hd
    cases hd
  | die _ hs => cases hs.symm.trans hd

/-- Nobody waits for the end of a thread that has ended. -/
theorem exitWaiters_eq_nil (h : t.Step l t') (hd : t'.isDormant = true)
    (hnobody : t.isDormant = true → t.exitWaiters = []) : t'.exitWaiters = [] := by
  cases h with
  | same | park | wake | strip => exact hnobody hd
  | edit hlife =>
    rw [hlife] at hd ⊢
    exact hnobody hd
  | joined hjoin =>
    rcases hjoin with hsub | hactive
    · rw [hnobody hd] at hsub
      exact List.subset_nil.mp hsub
    · cases hd.symm.trans hactive
  | @arrange status priority _ hstopped hdead =>
    refine hnobody ?_
    rw [← hd]
    show (t.status.stopped || t.status.dead) = (status.stopped || status.dead)
    rw [hstopped, hdead]
  | launch => cases hd
  | die => rfl

end Thread.Step

namespace Kernel

variable {k : Kernel} {o : Operation} {l : Label} {s s' : Stage} {t t' : Thread} {x : ThreadId} {Q : Thread → Prop}

/-! ### What an operation keeps of a thread -/

/-- What a move keeps of a thread that was there before the operation. -/
theorem kept_step (hQ : ∀ t t', t.id = x → t.Step l t' → Q t → Q t')
    (hlt : x.toNat < k.nextId.toNat) (hl : o.Permits k l) (hc : s.kernel.Coherent) (hm : Move l s s')
    (h : ∀ t', s.kernel.thread? x = some t' → Q t') : ∀ t', s'.kernel.thread? x = some t' → Q t' := by
  intro t₂ ht₂
  obtain ⟨t₁, ht₁, hstep⟩ | ⟨rfl, -, -⟩ := hm.thread hc ht₂
  · exact hQ t₁ t₂ (id_of_thread? ht₁) hstep (h t₁ ht₁)
  · rw [← id_of_thread? ht₂, show t₂.id = k.nextId from hl.created.1] at hlt
    omega

/-- **What the steps of an operation keep of a thread, the operation keeps.** -/
theorem kept_after (h : k.Coherent ∧ k.IdsBelow) (hn : k.started.Nodup)
    (hQ : ∀ l t t', o.Permits k l → t.id = x → t.Step l t' → Q t → Q t') (ht : k.thread? x = some t) (hq : Q t)
    (ht' : (k.after o).thread? x = some t') : Q t' := by
  obtain ⟨-, L, hkept, -⟩ := staged_after (o := o) (P := fun s => ∀ t', s.kernel.thread? x = some t' → Q t') h hn
    (fun l s s' hl hc _ hm => kept_step (fun t t' => hQ l t t' hl) (h.2.thread_lt ht) hl hc hm) fun t₁ ht₁ => by
      obtain rfl := Option.some.inj (ht.symm.trans ht₁)
      exact hq
  exact hkept t' ht'

/-! ### Nobody waits for the end of a thread that has ended -/

/-- Dormant threads have nobody who waits for their end. -/
def Unjoined (k : Kernel) : Prop := ∀ x t, k.thread? x = some t → t.isDormant = true → t.exitWaiters = []

theorem Unjoined.step (h : s.kernel.Unjoined) (hc : s.kernel.Coherent) (hm : Move l s s') : s'.kernel.Unjoined := by
  intro x t' ht' hd
  obtain ⟨t, ht, hstep⟩ | ⟨-, hnew, -⟩ := hm.thread hc ht'
  · exact hstep.exitWaiters_eq_nil hd (h x t ht)
  · exact hnew.2.2.1

/-- **Nobody ever waits for the end of a thread that has ended.** -/
theorem unjoined_run (config : KernelConfig) (memory : Memory) (operations : List Operation)
    (h : (Kernel.new config memory).handedOut operations < 2 ^ 32 - 1) :
    ((Kernel.new config memory).run operations).Unjoined := by
  refine (reachable_moves h (fun x t ht => ?_) fun _ _ _ hc _ hm hs => hs.step hc hm).2
  rw [thread?_new] at ht
  cases ht

end Kernel

end GuestKernel
