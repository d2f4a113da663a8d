/-
# Places in queues

A thread stands in a queue with what it asks for and with the priority it had when it was queued; `places` lists both.
That is more than the entries of `Object.entries`, which have no priority, and says when a thread that waits stands
where it stood: whoever does not leave a queue keeps its place in it, however many others leave (`Change.places`). While
a callback runs nobody enters a queue, and so the places of a thread change only as it is let go (`Move.placesIn`).

Source: specification, 4.4.
-/

import GuestKernel.Proofs.QueueEntries
import GuestKernel.Proofs.ThreadSteps

namespace GuestKernel

namespace WaitQueue

variable {ρ : Type} {q : WaitQueue ρ} {id id' : ThreadId} {demand : ρ → Demand}

/-- Where a thread stands in the queue: the priorities it was queued with and what it asks for. -/
def places (q : WaitQueue ρ) (demand : ρ → Demand) (id : ThreadId) : List (Option UInt32 × Demand) :=
  (q.filter (·.thread = id)).map fun w => (some w.priority, demand w.request)

theorem places_append (q q' : WaitQueue ρ) :
    places (q ++ q') demand id = q.places demand id ++ q'.places demand id := by
  unfold places
  rw [List.filter_append, List.map_append]

theorem places_of_not_mem (h : id ∉ q.threads) : q.places demand id = [] := by
  unfold places
  rw [List.map_eq_nil_iff, List.filter_eq_nil_iff]
  intro w hw hid
  exact h (List.mem_map.mpr ⟨w, hw, by simpa using hid⟩)

/-- Somebody else leaves. -/
theorem places_remove (hne : id ≠ id') : (q.remove id').places demand id = q.places demand id := by
  unfold places remove
  refine congrArg (List.map _) ?_
  induction q with
  | nil => rfl
  | cons w rest ih =>
    by_cases hw : w.thread = id'
    · have hout : ¬ w.thread = id := fun hid => hne (hid.symm.trans hw)
      rw [List.eraseP_cons_of_pos (by simpa using hw), List.filter_cons_of_neg (by simpa using hout)]
    · rw [List.eraseP_cons_of_neg (by simpa using hw), List.filter_cons, List.filter_cons, ih]

/-- Those at the front leave. -/
theorem places_drop (front : WaitQueue ρ) {rest : WaitQueue ρ} (hq : q = front ++ rest) (h : id ∉ front.threads) :
    rest.places demand id = q.places demand id := by
  rw [hq, places_append, places_of_not_mem h, List.nil_append]

end WaitQueue

/-- Whom an event flag passes over stands where it stood. -/
theorem EventFlag.places_serve {pattern : UInt32} {q : WaitQueue EventRequest} {id : ThreadId}
    (h : id ∉ (serve pattern q).2.2.map (·.thread)) :
    (serve pattern q).2.1.places .bits id = q.places .bits id := by
  induction q generalizing pattern with
  | nil => rfl
  | cons w rest ih =>
    unfold serve at h ⊢
    split at h
    · next hm =>
      rw [if_pos hm]
      have hne : w.thread ≠ id := fun hid => h (hid ▸ List.mem_cons_self ..)
      have hrest := ih fun hmem => h (List.mem_cons_of_mem _ hmem)
      exact hrest.trans (WaitQueue.places_drop [w] rfl (by simpa [WaitQueue.threads] using hne.symm))
    · next hm =>
      rw [if_neg hm]
      have hrest := ih h
      show WaitQueue.places ([w] ++ _) _ _ = WaitQueue.places ([w] ++ _) _ _
      rw [WaitQueue.places_append, WaitQueue.places_append, hrest]

namespace Object

variable {o o' : Object} {id id' : ThreadId}

/-- Where a thread stands in the queues of an object. Those that join a thread are queued without a priority. -/
def places (o : Object) (id : ThreadId) : List (Option UInt32 × Demand) :=
  match o with
  | thread t => (t.exitWaiters.filter (· = id)).map fun _ => (none, .exit)
  | semaphore s => s.waiters.places .units id
  | eventFlag f => f.waiters.places .bits id
  | mutex m => m.waiters.places .holds id
  | messagePipe p => p.senders.places .send id ++ p.receivers.places .receive id
  | callback _ | partitionMemory _ => []

theorem places_of_not_mem (h : id ∉ o.waiting) : o.places id = [] := by
  cases o with
  | thread t =>
    have hnone : t.exitWaiters.filter (· = id) = [] := by
      rw [List.filter_eq_nil_iff]
      intro x hx hid
      exact h ((by simpa using hid : x = id) ▸ hx)
    exact (congrArg (List.map _) hnone).trans rfl
  | semaphore | eventFlag | mutex => exact WaitQueue.places_of_not_mem h
  | messagePipe p =>
    have hs : p.senders.places .send id = [] := WaitQueue.places_of_not_mem fun hs => h (List.mem_append_left _ hs)
    have hr : p.receivers.places .receive id = [] :=
      WaitQueue.places_of_not_mem fun hr => h (List.mem_append_right _ hr)
    show _ ++ _ = _
    rw [hs, hr, List.append_nil]
  | callback | partitionMemory => rfl

/-- A waiter that leaves does not move the others. -/
theorem places_removeWaiter (hne : id ≠ id') : (o.removeWaiter id').places id = o.places id := by
  cases o with
  | thread t =>
    show List.map _ ((t.exitWaiters.filter (· != id')).filter (· = id)) = List.map _ (t.exitWaiters.filter (· = id))
    rw [List.filter_filter]
    refine congrArg (List.map _) (List.filter_congr fun x _ => ?_)
    by_cases hx : x = id
    · simp [hx, hne]
    · simp [hx]
  | semaphore | eventFlag | mutex => exact WaitQueue.places_remove hne
  | messagePipe p =>
    unfold removeWaiter
    dsimp only
    split
    · exact congrArg (· ++ _) (WaitQueue.places_remove hne)
    · exact congrArg (_ ++ ·) (WaitQueue.places_remove hne)
  | callback | partitionMemory => rfl

/-- A new object has no waiters. -/
theorem IsNew.places (h : o.IsNew) (id : ThreadId) : o.places id = [] := by
  refine places_of_not_mem ?_
  cases o with
  | thread t =>
    show id ∉ t.exitWaiters
    rw [h.2.2.1]
    exact List.not_mem_nil
  | semaphore s =>
    show id ∉ s.waiters.threads
    rw [h.1]
    exact List.not_mem_nil
  | eventFlag f =>
    show id ∉ f.waiters.threads
    rw [show f.waiters = [] from h]
    exact List.not_mem_nil
  | mutex m =>
    show id ∉ m.waiters.threads
    rw [h.1]
    exact List.not_mem_nil
  | messagePipe p =>
    show id ∉ p.senders.threads ++ p.receivers.threads
    rw [h.2.1, h.2.2.1]
    exact List.not_mem_nil
  | callback | partitionMemory => exact List.not_mem_nil

/-- **Whoever is not let go stands where it stood.** -/
theorem Change.places {off : List ThreadId} (h : o.Change o' off) (hid : id ∉ off) : o'.places id = o.places id := by
  have hempty : o'.places id = [] → id ∉ o.waiting → o'.places id = o.places id := by
    intro h₁ h₂
    rw [h₁, places_of_not_mem h₂]
  cases h with
  | notify | take | consume | keep => rfl
  | acquire _ h =>
    obtain ⟨-, -, rfl⟩ := Semaphore.acquire?_eq_some.mp h
    rfl
  | @release s amount =>
    obtain ⟨front, hq, hserved⟩ := Semaphore.serve_front (s.count + amount) s.waiters
    exact WaitQueue.places_drop front hq fun hmem => hid (hserved.symm ▸ hmem)
  | resetSemaphore | resetFlag | resetMutex | resetPipe => exact hempty rfl hid
  | raise f bits => exact EventFlag.places_serve hid
  | lock _ h => obtain ⟨-, rfl⟩ | ⟨-, -, -, rfl⟩ := Mutex.tryLock_acquired h <;> rfl
  | @unlock m m' thread count next _ h =>
    obtain ⟨-, -, ⟨-, -, rfl⟩ | ⟨-, -, -, rfl⟩ | ⟨-, w, rest, hq, rfl, rfl⟩⟩ := Mutex.unlock_ok h
    · rfl
    · rfl
    · exact WaitQueue.places_drop [w] hq hid
  | settle h =>
    obtain ⟨sent, received, hs, hr, hoff⟩ := h.served
    have hgone : id ∉ sent.threads ++ received.threads := fun hmem => hid (hoff.mem_iff.mpr hmem)
    exact congrArg₂ (· ++ ·) (WaitQueue.places_drop sent hs fun hmem => hgone (List.mem_append_left _ hmem))
      (WaitQueue.places_drop received hr fun hmem => hgone (List.mem_append_right _ hmem))

end Object

namespace Kernel

variable {k k' : Kernel} {id : ThreadId} {t : Thread} {o : Object}

/-- Where a thread stands in the queues of the object under an id. -/
def placesIn (k : Kernel) (x : ObjectId) (id : ThreadId) : List (Option UInt32 × Demand) :=
  ((k.objects.get? x).map (·.places id)).getD []

theorem placesIn_of_objects (h : k'.objects = k.objects) (x : ObjectId) : k'.placesIn x id = k.placesIn x id := by
  unfold placesIn
  rw [h]

theorem placesIn_put (o : Object) (x : ObjectId) :
    (k.put o).placesIn x id = if o.id = x then o.places id else k.placesIn x id := by
  have hget : (k.put o).objects.get? x = if o.id = x then some o else k.objects.get? x := ObjectTable.get?_put ..
  unfold placesIn
  rw [hget]
  split <;> rfl

theorem placesIn_erase (y x : ObjectId) (started : List ThreadId) :
    ({ k with objects := k.objects.erase y, started } : Kernel).placesIn x id =
      if y = x then [] else k.placesIn x id := by
  have hget : (k.objects.erase y).get? x = if y = x then none else k.objects.get? x := ObjectTable.get?_erase ..
  unfold placesIn
  dsimp only
  rw [hget]
  split <;> rfl

theorem placesIn_of_get? (h : k.objects.get? o.id = some o) : k.placesIn o.id id = o.places id := by
  unfold placesIn
  rw [h]
  rfl

theorem placesIn_of_thread? (ht : k.thread? t.id = some t) (h : id ∉ t.exitWaiters) : k.placesIn t.id id = [] :=
  (placesIn_of_get? (o := .thread t) (ObjectTable.thread?_eq_some.mp ht)).trans (Object.places_of_not_mem h)

/-- Threads are joined by the same threads as before, and nothing else is touched. -/
theorem placesIn_of_threads {x : ObjectId} (h : k'.objects.get? x = k.objects.get? x ∨
    ∃ t t', k.objects.get? x = some (.thread t) ∧ k'.objects.get? x = some (.thread t') ∧
      t'.exitWaiters = t.exitWaiters) : k'.placesIn x id = k.placesIn x id := by
  unfold placesIn
  obtain heq | ⟨t, t', ht, ht', hexit⟩ := h
  · rw [heq]
  · rw [ht, ht', Option.map_some, Option.map_some]
    show List.map _ (t'.exitWaiters.filter _) = List.map _ (t.exitWaiters.filter _)
    rw [hexit]

theorem Rearranges.placesIn (h : Rearranges k k') (x : ObjectId) : k'.placesIn x id = k.placesIn x id :=
  placesIn_of_threads ((h.objects x).imp_right fun ⟨t, t', ht, ht', hties⟩ => ⟨t, t', ht, ht', hties.exitWaiters⟩)

theorem placesIn_putThread (t' : Thread) (ht : k.thread? t'.id = some t) (hexit : t'.exitWaiters = t.exitWaiters)
    (x : ObjectId) : (k.putThread t').placesIn x id = k.placesIn x id := by
  have hid := id_of_thread? ht
  exact placesIn_of_threads (threads_putThread t' (hid ▸ ht) hid.symm hexit x)

/-- A wake moves nobody in a queue. -/
theorem placesIn_wake (id' : ThreadId) (result : Int32) (x : ObjectId) :
    (k.wake id' result).placesIn x id = k.placesIn x id := by
  refine placesIn_of_threads (((onlyThreads_wake k id' result).objects x).imp_right ?_)
  rintro ⟨t, t', ht, ht', -⟩
  refine ⟨t, t', ht, ht', ?_⟩
  have hbefore : k.thread? x = some t := ObjectTable.thread?_eq_some.mpr ht
  have hafter : (k.wake id' result).thread? x = some t' := ObjectTable.thread?_eq_some.mpr ht'
  rw [thread?_wake, hbefore] at hafter
  split at hafter
  · cases hafter
    show (t.woken result).exitWaiters = t.exitWaiters
    unfold Thread.woken
    split <;> rfl
  · cases hafter
    rfl

theorem placesIn_detach (hne : id ≠ t.id) (w : Wait) (x : ObjectId) :
    (k.detach t.id w).placesIn x id = k.placesIn x id := by
  obtain heq | ⟨e, -, heq⟩ | ⟨o, ho, -, -, -, heq⟩ := detach_cases k t.id w <;> rw [heq]
  · rfl
  · have hid := ObjectTable.id_of_get? ho
    rw [placesIn_put, Object.id_removeWaiter]
    split
    · next hx => rw [Object.places_removeWaiter hne, ← hx, placesIn_of_get? (hid.symm ▸ ho)]
    · rfl

end Kernel

/-- **While a callback runs a thread that lives keeps its places in all queues**, unless it is let go. -/
theorem Move.placesIn {l : Label} {s s' : Stage} {d : Delivery} {id : ThreadId} (hm : Move l s s')
    (hd : s.kernel.delivering = some d) (hjoin : s.kernel.Unjoined)
    (hfresh : l.Fresh s.kernel) (hid : ∀ e, l ≠ .retire id e) :
    id ∈ s'.transit ∨ ∀ x, s'.kernel.placesIn x id = s.kernel.placesIn x id := by
  have hrearranges := hm.rearranges
  cases hm with
  | quiet hq | load hq => exact Or.inr (Kernel.placesIn_of_objects hq.objects)
  | resource hq | reserve hq => exact Or.inr (Kernel.placesIn_of_objects hq.objects)
  | @create k L o hnext hnew =>
    refine Or.inr fun x => ?_
    have hput : ({ k with objects := k.objects.skipId.put o } : Kernel).placesIn x id =
        if o.id = x then o.places id else k.placesIn x id :=
      Kernel.placesIn_put (k := { k with objects := k.objects.skipId }) o x
    rw [hput]
    split
    · next hx =>
      rw [hnew.places, Kernel.placesIn, ← hx, hfresh o rfl]
      rfl
    · rfl
  | @erase k o ho =>
    by_cases hmem : id ∈ o.waiting
    · exact Or.inl hmem
    · refine Or.inr fun x => ?_
      rw [Kernel.placesIn_erase o.id x k.started]
      split
      · next hx => rw [← hx, Kernel.placesIn_of_get? ho, Object.places_of_not_mem hmem]
      · rfl
  | @change k o o' off ho hchange =>
    by_cases hmem : id ∈ off
    · exact Or.inl hmem
    · refine Or.inr fun x => ?_
      rw [Kernel.placesIn_put, hchange.id_eq]
      split
      · next hx => rw [← hx, Kernel.placesIn_of_get? ho, hchange.places hmem]
      · rfl
  | enqueue _ _ _ _ hnone | park hnone | doze _ _ _ hnone => cases hnone.symm.trans hd
  | @edit k L t t' ht hlife =>
    rw [hlife]
    exact Or.inr (Kernel.placesIn_putThread (t := t) _ ht rfl)
  | @launch k L t registers ht =>
    refine Or.inr fun x => ?_
    let t' : Thread := { t with context := some k.contexts.freshId, status := .onlyReady }
    rw [Kernel.placesIn_of_objects (Kernel.objects_launch _ t _)]
    exact Kernel.placesIn_putThread (k := k.allocateContext t.entry registers) t' ht rfl x
  | @detach k t w =>
    by_cases hne : id = t.id
    · exact Or.inl (List.mem_singleton.mpr hne)
    · exact Or.inr (Kernel.placesIn_detach hne w)
  | wake => exact Or.inr (Kernel.placesIn_wake _ _)
  | @retire k t exitCode ht =>
    have hne : id ≠ t.id := fun heq => hid exitCode (by rw [heq])
    by_cases hmem : id ∈ t.exitWaiters
    · exact Or.inl hmem
    · have hfell : ∀ x, (k.fell t exitCode).placesIn x id = k.placesIn x id := by
        intro x
        refine (Kernel.placesIn_put (.thread (t.die exitCode)) x).trans ?_
        split
        · next hx =>
          rw [← hx]
          exact (Kernel.placesIn_of_thread? ht hmem).symm
        · rfl
      obtain ⟨-, h⟩ | ⟨w, -, h⟩ := Kernel.retire_eq k t exitCode <;> rw [h]
      · exact Or.inr hfell
      · exact Or.inr fun x => (Kernel.placesIn_detach hne w x).trans (hfell x)
  | @strip k L t contexts ht =>
    exact Or.inr (Kernel.placesIn_putThread t.strip ht rfl)
  | @bury k L t ht hdead =>
    refine Or.inr fun x => ?_
    rw [Kernel.placesIn_erase]
    split
    · next hx =>
      -- Nobody waits for the end of a dead thread.
      have hnobody : t.exitWaiters = [] := hjoin t.id t ht (by simp [Thread.isDormant, ThreadStatus.dormant, hdead])
      rw [← hx]
      exact (Kernel.placesIn_of_thread? ht (hnobody ▸ List.not_mem_nil)).symm
    · rfl
  | _ => exact Or.inr (hrearranges trivial).placesIn

end GuestKernel
