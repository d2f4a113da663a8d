/-
# Timeouts

When the clock moves, the waits whose deadline has come end one after another. Each ends in the same way: the thread
leaves the queue of the object it waits on, is told that nothing is left of its timeout, and is woken with the result of
a timeout. Since the deadlines are compared with the clock once, before the first wait ends, and no wait that ends
touches another one, the order does not matter, and the call as a whole is described by the list of threads that were
due.

| part of the kernel | after the threads `due` have timed out |
| --- | --- |
| those threads | ready or on hold, without a wait |
| all other objects | `Object.dropWaiters due` |
| guest memory | the words that held the timeouts are 0 |
| contexts | the result in `v0` |

Source: specification, 4.4 and 8.
-/

import GuestKernel.Proofs.QueuePlaces
import GuestKernel.Proofs.ThreadContexts

namespace GuestKernel

/-! ### Leaving queues -/

/-- The object without the given threads in its queues, and else the same. -/
def Object.dropWaiters (ids : List ThreadId) : Object → Object
  | thread t => thread { t with exitWaiters := t.exitWaiters.filter (· ∉ ids) }
  | callback c => callback c
  | semaphore s => semaphore { s with waiters := s.waiters.filter (·.thread ∉ ids) }
  | eventFlag f => eventFlag { f with waiters := f.waiters.filter (·.thread ∉ ids) }
  | mutex m => mutex { m with waiters := m.waiters.filter (·.thread ∉ ids) }
  | messagePipe p => messagePipe
      { p with
        senders := p.senders.filter (·.thread ∉ ids)
        receivers := p.receivers.filter (·.thread ∉ ids) }
  | partitionMemory b => partitionMemory b

namespace WaitQueue

variable {ρ : Type} {q : WaitQueue ρ} {id : ThreadId}

/-- Nobody is left out who does not stand in the queue. -/
theorem filter_eq_self_of_not_mem (h : id ∉ q.threads) : q.filter (·.thread ∉ [id]) = q := by
  refine List.filter_eq_self.mpr fun x hx => ?_
  have hne : x.thread ≠ id := by
    rintro rfl
    exact h (List.mem_map_of_mem hx)
  simpa using hne

/-- In a queue without repetition, taking a thread out is keeping the others. -/
theorem remove_eq_filter (hn : q.threads.Nodup) (id : ThreadId) : q.remove id = q.filter (·.thread ∉ [id]) := by
  induction q with
  | nil => rfl
  | cons w rest ih =>
    obtain ⟨hout, hrest⟩ := List.nodup_cons.mp hn
    unfold remove
    by_cases hw : w.thread = id
    · subst hw
      rw [List.eraseP_cons_of_pos (by simp), List.filter_cons_of_neg (by simp)]
      exact (filter_eq_self_of_not_mem hout).symm
    · rw [List.eraseP_cons_of_neg (by simpa using hw), List.filter_cons_of_pos (by simpa using hw)]
      exact congrArg (w :: ·) (ih hrest)

end WaitQueue

namespace Object

variable {o : Object} {id : ThreadId} {ids ids' : List ThreadId}

theorem dropWaiters_nil (o : Object) : o.dropWaiters [] = o := by
  cases o <;> simp [dropWaiters]

theorem dropWaiters_dropWaiters (o : Object) : (o.dropWaiters ids).dropWaiters ids' = o.dropWaiters (ids ++ ids') := by
  cases o <;> simp [dropWaiters, List.filter_filter, Bool.and_comm]

theorem waiting_dropWaiters (ids : List ThreadId) (o : Object) :
    (o.dropWaiters ids).waiting = o.waiting.filter (· ∉ ids) := by
  cases o <;> simp [dropWaiters, waiting, WaitQueue.threads, List.filter_map, Function.comp_def]

/-- Nobody is taken off who does not stand there. -/
theorem dropWaiters_of_not_mem (h : id ∉ o.waiting) : o.dropWaiters [id] = o := by
  cases o with
  | thread t =>
    have hkeep : t.exitWaiters.filter (· ∉ [id]) = t.exitWaiters := by
      refine List.filter_eq_self.mpr fun x hx => ?_
      have hne : x ≠ id := fun heq => h (heq ▸ hx)
      simpa using hne
    rw [dropWaiters, hkeep]
  | callback c => rfl
  | semaphore s => rw [dropWaiters, WaitQueue.filter_eq_self_of_not_mem h]
  | eventFlag f => rw [dropWaiters, WaitQueue.filter_eq_self_of_not_mem h]
  | mutex m => rw [dropWaiters, WaitQueue.filter_eq_self_of_not_mem h]
  | messagePipe p =>
    obtain ⟨hs, hr⟩ := not_or.mp (mt List.mem_append.mpr h)
    rw [dropWaiters, WaitQueue.filter_eq_self_of_not_mem hs, WaitQueue.filter_eq_self_of_not_mem hr]
  | partitionMemory b => rfl

/-- A thread that stands in a queue once is taken off it. -/
theorem removeWaiter_eq (hn : o.waiting.Nodup) (id : ThreadId) : o.removeWaiter id = o.dropWaiters [id] := by
  cases o with
  | thread t =>
    have hpred : (fun x : ThreadId => decide (x ∉ [id])) = fun x => x != id := by
      funext x
      by_cases hx : x = id <;> simp [hx]
    rw [dropWaiters, removeWaiter, hpred]
  | callback c => rfl
  | semaphore s => rw [dropWaiters, removeWaiter, WaitQueue.remove_eq_filter hn]
  | eventFlag f => rw [dropWaiters, removeWaiter, WaitQueue.remove_eq_filter hn]
  | mutex m => rw [dropWaiters, removeWaiter, WaitQueue.remove_eq_filter hn]
  | messagePipe p =>
    obtain ⟨hs, hr, hdisjoint⟩ := List.nodup_append.mp hn
    rw [dropWaiters, removeWaiter]
    by_cases hmem : id ∈ p.senders.threads
    · have hother : id ∉ p.receivers.threads := fun hmem' => hdisjoint id hmem id hmem' rfl
      rw [if_pos (WaitQueue.holds_iff.mpr hmem), WaitQueue.remove_eq_filter hs,
        WaitQueue.filter_eq_self_of_not_mem hother]
    · rw [if_neg (mt WaitQueue.holds_iff.mp hmem), WaitQueue.remove_eq_filter hr,
        WaitQueue.filter_eq_self_of_not_mem hmem]
  | partitionMemory b => rfl

end Object

/-- The thread after its wait, if it has one, has timed out. -/
def Thread.timeOut (t : Thread) : Thread :=
  match t.wait with
  | some w => t.unpark (Kernel.timeoutResult w)
  | none => t

theorem Thread.exitWaiters_timeOut (t : Thread) : t.timeOut.exitWaiters = t.exitWaiters := by
  unfold timeOut
  split <;> rfl

theorem Thread.context_timeOut (t : Thread) : t.timeOut.context = t.context := by
  unfold timeOut
  split <;> rfl

/-- The status of a thread whose wait is over. -/
theorem Thread.Sound.unpark_status {t : Thread} (h : t.Sound) (hw : t.status.waiting = true) :
    t.status.unpark = if t.status = .waitSuspended then .onlySuspended else .onlyReady := by
  rcases h.of_waiting hw with hs | hs <;> rw [hs] <;> rfl

/-- The object, which has timed out if it is a thread that waits. -/
def Object.timeOut : Object → Object
  | thread t => thread t.timeOut
  | o => o

/-- Whom a thread is joined by does not matter for its timeout. -/
theorem Object.timeOut_dropWaiters (ids : List ThreadId) (o : Object) :
    (o.dropWaiters ids).timeOut = o.timeOut.dropWaiters ids := by
  cases o with
  | thread t =>
    cases hw : t.wait with
    | none => simp [dropWaiters, timeOut, Thread.timeOut, hw]
    | some w => simp [dropWaiters, timeOut, Thread.timeOut, hw, Thread.unpark]
  | _ => rfl

theorem Object.thread?_timeOut_dropWaiters (ids : List ThreadId) (t : Thread) :
    ((Object.thread t).timeOut.dropWaiters ids).thread? =
      some { t.timeOut with exitWaiters := t.exitWaiters.filter (· ∉ ids) } := by
  rw [← Thread.exitWaiters_timeOut]
  rfl

/-! ### Words that are 0 -/

namespace Memory

variable {m m' m'' : Memory} {address : UInt32} {value : UInt32}

/-- The same addresses are mapped, and each byte is as it was or 0. -/
def Clears (m m' : Memory) : Prop :=
  m'.hasScratchpad = m.hasScratchpad ∧
    ∀ region offset, m'.cells region offset = m.cells region offset ∨ m'.cells region offset = 0

theorem Clears.refl (m : Memory) : m.Clears m := ⟨rfl, fun _ _ => Or.inl rfl⟩

theorem Clears.trans (h : m.Clears m') (h' : m'.Clears m'') : m.Clears m'' := by
  refine ⟨h'.1.trans h.1, fun region offset => ?_⟩
  obtain heq | heq := h'.2 region offset
  · rw [heq]
    exact h.2 region offset
  · exact Or.inr heq

theorem Clears.locate_eq (h : m.Clears m') (address : UInt32) (length : Nat) :
    m'.locate address length = m.locate address length := by
  unfold locate regionOf? regions
  rw [h.1]

/-- Clearing keeps words readable. -/
theorem Clears.readWord (h : m.Clears m') (hvalue : m.readWord address = .ok value) :
    ∃ value', m'.readWord address = .ok value' := by
  unfold Memory.readWord readBytes at hvalue ⊢
  rw [h.locate_eq]
  cases hplace : m.locate address 4 with
  | error f =>
    rw [hplace] at hvalue
    cases hvalue
  | ok place => exact ⟨_, rfl⟩

/-- The four bytes from an address on are mapped and 0. -/
def IsZero (m : Memory) (address : UInt32) : Prop :=
  ∃ place, m.locate address 4 = .ok place ∧ ∀ i < 4, m.cells place.region (place.offset + i) = 0

/-- What is 0 stays so. -/
theorem IsZero.clears (h : m.IsZero address) (hm : m.Clears m') : m'.IsZero address := by
  obtain ⟨place, hplace, hcells⟩ := h
  refine ⟨place, (hm.locate_eq address 4).trans hplace, fun i hi => ?_⟩
  obtain heq | heq := hm.2 place.region (place.offset + i)
  · rw [heq, hcells i hi]
  · exact heq

theorem IsZero.readWord (h : m.IsZero address) : m.readWord address = .ok 0 := by
  obtain ⟨place, hplace, hcells⟩ := h
  have hbytes : m.bytesAt place 4 = (List.range 4).map fun _ => 0 :=
    List.map_congr_left fun i hi => hcells i (List.mem_range.mp hi)
  unfold Memory.readWord readBytes
  rw [hplace]
  show Except.ok (UInt32.ofNat (ofBytes (m.bytesAt place 4))) = _
  rw [hbytes]
  rfl

/-- Telling 0 through a pointer that is not null clears the word behind it, if that is mapped. -/
theorem tell_zero (haddress : address ≠ 0) : m.tell address 0 =
    match m.locate address 4 with
    | .ok place => m.storeRun place 0 4
    | .error _ => m := by
  have hbytes : toBytes 4 (0 : UInt32).toNat = List.replicate 4 0 := rfl
  unfold tell writeOptional writeWord writeBytes
  rw [if_neg haddress, hbytes, List.length_replicate]
  cases m.locate address 4 with
  | error f => rfl
  | ok place => exact (storeRun_eq_store m place 0 4).symm

/-- Writing 0 clears four bytes, or none. -/
theorem clears_tell (m : Memory) (address : UInt32) : m.Clears (m.tell address 0) := by
  by_cases haddress : address = 0
  · subst haddress
    exact .refl m
  · rw [tell_zero haddress]
    cases m.locate address 4 with
    | error f => exact .refl m
    | ok place =>
      refine ⟨rfl, fun region offset => ?_⟩
      dsimp only [storeRun]
      split
      · exact Or.inr rfl
      · exact Or.inl rfl

/-- A word that is told to be 0 is 0, wherever it is mapped. -/
theorem isZero_tell (haddress : address ≠ 0) (h : m.readWord address = .ok value) :
    (m.tell address 0).IsZero address := by
  have hlocate := (clears_tell m address).locate_eq address 4
  unfold readWord readBytes at h
  cases hplace : m.locate address 4 with
  | error f =>
    rw [hplace] at h
    cases h
  | ok place =>
    refine ⟨place, hlocate.trans hplace, fun i hi => ?_⟩
    rw [tell_zero haddress, hplace]
    exact if_pos ⟨rfl, Nat.le_add_right .., by omega⟩

end Memory

namespace Kernel

variable {k k' : Kernel} {id : ThreadId} {t : Thread} {w : Wait} {x : ObjectId} {due : List (ThreadId × Wait)}
  {deadline : UInt64}

/-! ### One timeout -/

/-- A thread that leaves its queue leaves every queue. -/
theorem get?_detach (h : k.Placed []) (hw : k.waitOf? id = some w) (x : ObjectId) :
    (k.detach id w).objects.get? x = (k.objects.get? x).map (·.dropWaiters [id]) := by
  -- The thread stands in no other queue than that of its object.
  have hother : ∀ o, k.objects.get? x = some o → (x ≠ w.handle ∨ w.kind = .sleep ∨ w.kind = .delay) → id ∉ o.waiting := by
    intro o ho hne hmem
    rw [← Object.map_entries, ← queues_of_get? ho] at hmem
    obtain ⟨hhandle, hsleep, hdelay⟩ := Places.handle_eq h hw hmem
    rcases hne with hne | hk | hk
    · exact hne hhandle.symm
    · exact hsleep hk
    · exact hdelay hk
  have hstay : (∀ o, k.objects.get? x = some o → id ∉ o.waiting) →
      k.objects.get? x = (k.objects.get? x).map (·.dropWaiters [id]) := by
    intro hout
    cases ho : k.objects.get? x with
    | none => rfl
    | some o => rw [Option.map_some, Object.dropWaiters_of_not_mem (hout o ho)]
  unfold detach
  split
  · next hkind => exact hstay fun o ho => hother o ho (Or.inr hkind)
  · split
    · next hnone =>
      refine hstay fun o ho => hother o ho (Or.inl ?_)
      rintro rfl
      rw [hnone] at ho
      cases ho
    · next o ho =>
      split
      · next hmem =>
        have hid : (o.removeWaiter id).id = w.handle := (Object.id_removeWaiter o id).trans (ObjectTable.id_of_get? ho)
        have hput : (k.put (o.removeWaiter id)).objects.get? x =
            if (o.removeWaiter id).id = x then some (o.removeWaiter id) else k.objects.get? x := ObjectTable.get?_put ..
        rw [hput, hid]
        split
        · next hx =>
          rw [← hx, ho, Option.map_some, Object.removeWaiter_eq (h.nodup_waiting ho)]
        · next hx => exact hstay fun o' ho' => hother o' ho' (Or.inl (Ne.symm hx))
      · next hmem =>
        refine hstay fun o' ho' => ?_
        by_cases hx : x = w.handle
        · subst hx
          rw [ho, Option.some.injEq] at ho'
          subst ho'
          simpa using hmem
        · exact hother o' ho' (Or.inl hx)

theorem get?_wake (ht : k.thread? id = some t) (hw : t.wait = some w) (result : Int32) (x : ObjectId) :
    (k.wake id result).objects.get? x = if id = x then some (.thread (t.unpark result)) else k.objects.get? x := by
  have hid : t.id = id := id_of_thread? ht
  have hput : (k.putThread (t.unpark result)).objects.get? x =
      if t.id = x then some (.thread (t.unpark result)) else k.objects.get? x := ObjectTable.get?_put ..
  rw [hid] at hput
  rw [(wake_of_waiting ht hw result).objects, awaken, apply_ite Kernel.objects, objects_schedule, ite_self, hput]

/-- **A timeout ends one wait** and takes one thread off its queue. -/
theorem get?_expire (h : k.Placed []) (hw : k.waitOf? id = some w) (x : ObjectId) : (k.expire id w).objects.get? x =
    (k.objects.get? x).map fun o => (if x ∈ [id] then o.timeOut else o).dropWaiters [id] := by
  obtain ⟨t, ht, hwait⟩ := waitOf?_eq_some.mp hw
  have hget := get?_detach h hw
  have ht' : ((k.detach id w).note (.timedOut id w.kind)).thread? id =
      some { t with exitWaiters := t.exitWaiters.filter (· ∉ [id]) } := by
    refine ObjectTable.thread?_eq_some.mpr ?_
    show (k.detach id w).objects.get? id = _
    rw [hget, ObjectTable.thread?_eq_some.mp ht, Option.map_some, Object.dropWaiters]
  unfold expire
  rw [get?_wake ht' hwait]
  by_cases hx : id = x
  · subst hx
    rw [if_pos rfl, ObjectTable.thread?_eq_some.mp ht, Option.map_some, if_pos (List.mem_singleton_self _),
      Object.timeOut, Thread.timeOut, hwait]
    rfl
  · rw [if_neg hx]
    show (k.detach id w).objects.get? x = _
    have hnot : x ∉ [id] := fun hmem => hx (List.mem_singleton.mp hmem).symm
    simp only [hget, if_neg hnot]

theorem placed_expire (h : k.Placed []) (hw : k.waitOf? id = some w) : (k.expire id w).Placed [] := by
  have hnoted : ((k.detach id w).note (.timedOut id w.kind)).Placed [id] := (h.detach hw).sameRecords (.of_objects rfl)
  exact hnoted.wake _

theorem now_expire (k : Kernel) (id : ThreadId) (w : Wait) : (k.expire id w).now = k.now := by
  unfold expire
  rw [now_wake]
  obtain h | ⟨e, -, h⟩ | ⟨o, -, -, -, -, h⟩ := detach_cases k id w <;> rw [h] <;> rfl

/-! ### All timeouts -/

/-- The kernel after waits have timed out one after another. -/
def expireAll (k : Kernel) (due : List (ThreadId × Wait)) : Kernel := due.foldl (fun k (id, w) => k.expire id w) k

/-- Waits that time out one after another are those that were on record at first. -/
theorem expireAll_induction {P : Kernel → List (ThreadId × Wait) → Kernel → Prop}
    (hnil : ∀ k, P k [] k)
    (hcons : ∀ k id w rest k', k.Placed [] → k.waitOf? id = some w → id ∉ rest.map (·.1) →
      P (k.expire id w) rest k' → P k ((id, w) :: rest) k')
    (h : k.Placed []) (hn : (due.map (·.1)).Nodup) (hdue : ∀ e ∈ due, k.waitOf? e.1 = some e.2) :
    P k due (k.expireAll due) := by
  induction due generalizing k with
  | nil => exact hnil k
  | cons e rest ih =>
    obtain ⟨id, w⟩ := e
    obtain ⟨hout, hrest⟩ := List.nodup_cons.mp hn
    have hw := hdue (id, w) (List.mem_cons_self ..)
    refine hcons k id w rest _ h hw hout (ih (placed_expire h hw) hrest fun e he => ?_)
    have hne : e.1 ≠ id := by
      rintro rfl
      exact hout (List.mem_map.mpr ⟨e, he, rfl⟩)
    rw [waitOf?_expire_of_ne hne]
    exact hdue e (List.mem_cons_of_mem _ he)

/-- **What is left of the objects**: threads that were due have timed out, and nobody who was due stands in a queue. -/
theorem get?_expireAll (h : k.Placed []) (hn : (due.map (·.1)).Nodup)
    (hdue : ∀ e ∈ due, k.waitOf? e.1 = some e.2) (x : ObjectId) : (k.expireAll due).objects.get? x =
      (k.objects.get? x).map fun o =>
        (if x ∈ due.map (·.1) then o.timeOut else o).dropWaiters (due.map (·.1)) := by
  refine expireAll_induction (P := fun k due k' => k'.objects.get? x = (k.objects.get? x).map fun o =>
    (if x ∈ due.map (·.1) then o.timeOut else o).dropWaiters (due.map (·.1))) (fun k => ?_) ?_ h hn hdue
  · simp [Object.dropWaiters_nil]
  · intro k id w rest k' hplaced hw hout ih
    rw [ih, get?_expire hplaced hw, Option.map_map]
    refine congrArg (Option.map · _) (funext fun o => ?_)
    simp only [Function.comp_apply, List.map_cons]
    by_cases hx : x = id
    · subst hx
      rw [if_neg hout, if_pos (List.mem_singleton_self x), if_pos (List.mem_cons_self ..), Object.dropWaiters_dropWaiters]
      rfl
    · have hone : x ∉ [id] := fun hmem => hx (List.mem_singleton.mp hmem)
      by_cases hmem : x ∈ rest.map (·.1)
      · rw [if_pos hmem, if_neg hone, if_pos (List.mem_cons_of_mem _ hmem), Object.timeOut_dropWaiters,
          Object.dropWaiters_dropWaiters]
        rfl
      · have hnot : x ∉ id :: rest.map (·.1) := fun hc => (List.mem_cons.mp hc).elim hx hmem
        rw [if_neg hmem, if_neg hone, if_neg hnot, Object.dropWaiters_dropWaiters]
        rfl

/-- The threads among objects that have timed out or lost waiters. -/
theorem thread?_of_timeOut {p : Prop} [Decidable p] {ids : List ThreadId} (h : k'.objects.get? x =
    (k.objects.get? x).map fun o => (if p then o.timeOut else o).dropWaiters ids) : k'.thread? x =
      (k.thread? x).map fun t =>
        { (if p then t.timeOut else t) with exitWaiters := t.exitWaiters.filter (· ∉ ids) } := by
  rw [thread?, thread?, ObjectTable.thread?_eq_bind, ObjectTable.thread?_eq_bind, h]
  cases k.objects.get? x with
  | none => rfl
  | some o =>
    rw [Option.map_some, Option.bind_some, Option.bind_some]
    cases o with
    | thread t =>
      split
      · exact Object.thread?_timeOut_dropWaiters _ t
      · rfl
    | _ => split <;> rfl

/-- Whoever is due times out, and leaves the queue of a thread it joined; others are as before. -/
theorem thread?_expireAll (due : List (ThreadId × Wait)) (h : k.Placed []) (hn : (due.map (·.1)).Nodup)
    (hdue : ∀ e ∈ due, k.waitOf? e.1 = some e.2) (x : ThreadId) : (k.expireAll due).thread? x =
      (k.thread? x).map fun t =>
        { (if x ∈ due.map (·.1) then t.timeOut else t) with
          exitWaiters := t.exitWaiters.filter (· ∉ due.map (·.1)) } :=
  thread?_of_timeOut (get?_expireAll h hn hdue x)

theorem tellRemaining_of_wait {remaining : UInt32} (hw : k.waitOf? id = some w)
    (hr : w.remaining? k.now = some remaining) (m : Memory) : k.tellRemaining m id = m.tell w.timeoutAddress remaining := by
  unfold tellRemaining
  rw [hw]
  dsimp only
  rw [hr]
  rfl

/-- A thread that times out is told that nothing is left of its timeout. -/
theorem memory_expire (hw : k.waitOf? id = some w) (hd : w.deadline? = some deadline)
    (hdue : deadline ≤ k.now) : (k.expire id w).memory = k.memory.tell w.timeoutAddress 0 := by
  have hdetach : (k.detach id w).memory = k.memory ∧ (k.detach id w).now = k.now := by
    obtain h | ⟨e, -, h⟩ | ⟨o, -, -, -, -, h⟩ := detach_cases k id w <;> rw [h] <;> exact ⟨rfl, rfl⟩
  have hremaining : w.remaining? (k.detach id w).now = some 0 := by
    have hle : deadline.toNat ≤ k.now.toNat := UInt64.le_iff_toNat_le.mp hdue
    unfold Wait.remaining?
    rw [hd, hdetach.2, Option.map_some, Nat.sub_eq_zero_of_le hle]
    rfl
  have hwait : ((k.detach id w).note (.timedOut id w.kind)).waitOf? id = some w := (waitOf?_detach k id w id).trans hw
  unfold expire
  rw [memory_wake, tellRemaining_of_wait hwait hremaining]
  exact congrArg (·.tell w.timeoutAddress 0) hdetach.1

/-- **Timeout words**: what was the timeout of a thread that was due is 0, if it is mapped, and no byte is new but 0. -/
theorem memory_expireAll (h : k.Placed []) (hn : (due.map (·.1)).Nodup) (hdue : ∀ e ∈ due, k.waitOf? e.1 = some e.2)
    (htime : ∀ e ∈ due, ∃ deadline, e.2.deadline? = some deadline ∧ deadline ≤ k.now) :
    k.memory.Clears (k.expireAll due).memory ∧ ∀ e ∈ due, e.2.timeoutAddress ≠ 0 →
      ∀ value, k.memory.readWord e.2.timeoutAddress = .ok value →
        (k.expireAll due).memory.IsZero e.2.timeoutAddress := by
  refine expireAll_induction (P := fun k due k' =>
    (∀ e ∈ due, ∃ deadline, e.2.deadline? = some deadline ∧ deadline ≤ k.now) → k.memory.Clears k'.memory ∧
      ∀ e ∈ due, e.2.timeoutAddress ≠ 0 → ∀ value, k.memory.readWord e.2.timeoutAddress = .ok value →
        k'.memory.IsZero e.2.timeoutAddress) (fun k _ => ⟨.refl _, nofun⟩) ?_ h hn hdue htime
  intro k id w rest k' _ hw _ ih htime
  obtain ⟨⟨deadline, hd, hle⟩, htime⟩ := List.forall_mem_cons.mp htime
  have hmemory := memory_expire hw hd hle
  have hclears : k.memory.Clears (k.expire id w).memory := hmemory ▸ Memory.clears_tell ..
  obtain ⟨hrest, hzero⟩ := ih fun e he => by
    rw [now_expire]
    exact htime e he
  refine ⟨hclears.trans hrest, List.forall_mem_cons.mpr ⟨fun haddress value hvalue => ?_,
    fun e he haddress value hvalue => ?_⟩⟩
  · have htold : (k.expire id w).memory.IsZero w.timeoutAddress := hmemory ▸ Memory.isZero_tell haddress hvalue
    exact htold.clears hrest
  · obtain ⟨value', hvalue'⟩ := hclears.readWord hvalue
    exact hzero e he haddress value' hvalue'

/-! ### Registers -/

/-- A timeout has nothing to do with who has which context. -/
theorem contextOf?_expire (h : k.Placed []) (hw : k.waitOf? id = some w) (x : ThreadId) :
    (k.expire id w).contextOf? x = k.contextOf? x := by
  have hone : (k.expireAll [(id, w)]).thread? x = _ :=
    thread?_expireAll [(id, w)] h (List.nodup_singleton _) (by simpa using hw) x
  unfold contextOf?
  rw [show (k.expire id w).thread? x = _ from hone]
  cases k.thread? x with
  | none => rfl
  | some t =>
    rw [Option.map_some, Option.bind_some, Option.bind_some]
    show (if x ∈ _ then t.timeOut else t : Thread).context = t.context
    split
    · exact t.context_timeOut
    · rfl

/-- A thread that times out has the result in `v0`. -/
theorem contexts_expire (hw : k.waitOf? id = some w) : (k.expire id w).contexts =
    ((k.contextOf? id).map fun c => k.contexts.setRegister c Register.v0 (timeoutResult w).toUInt32).getD k.contexts := by
  have hcontext : (k.detach id w).contextOf? id = k.contextOf? id := by
    unfold contextOf?
    obtain heq | ⟨t, ht, -, heq⟩ := thread?_detach k id w id <;> rw [heq]
    rw [ht]
    rfl
  obtain ⟨t, ht, hwait⟩ := waitOf?_eq_some.mp ((waitOf?_detach k id w id).trans hw)
  have hid : t.context = k.contextOf? id := by
    rw [← hcontext, contextOf?, ht, Option.bind_some]
  have hwoken : (k.expire id w).contexts = (t.context.map fun c =>
      (k.detach id w).contexts.setRegister c Register.v0 (timeoutResult w).toUInt32).getD (k.detach id w).contexts :=
    contexts_wake (k := (k.detach id w).note (.timedOut id w.kind)) ht hwait _
  rw [hwoken, contexts_detach, hid]

/-- **The result of a timeout is in `v0`** of each thread that was due, and other contexts are left alone. -/
theorem register_expireAll (h : k.Placed []) (hn : (due.map (·.1)).Nodup) (hdue : ∀ e ∈ due, k.waitOf? e.1 = some e.2)
    (hapart : ∀ x y c, k.contextOf? x = some c → k.contextOf? y = some c → x = y) :
    (∀ c, (∀ e ∈ due, k.contextOf? e.1 ≠ some c) → ∀ i,
      (k.expireAll due).contexts.register c i = k.contexts.register c i) ∧
    ∀ e ∈ due, ∀ c, k.contextOf? e.1 = some c → (k.contexts.get? c).isSome = true →
      (k.expireAll due).contexts.register c Register.v0 = (timeoutResult e.2).toUInt32 := by
  refine expireAll_induction (P := fun k due k' =>
    (∀ x y c, k.contextOf? x = some c → k.contextOf? y = some c → x = y) →
      (∀ c, (∀ e ∈ due, k.contextOf? e.1 ≠ some c) → ∀ i, k'.contexts.register c i = k.contexts.register c i) ∧
      ∀ e ∈ due, ∀ c, k.contextOf? e.1 = some c → (k.contexts.get? c).isSome = true →
        k'.contexts.register c Register.v0 = (timeoutResult e.2).toUInt32) (fun k _ => ⟨fun _ _ _ => rfl, nofun⟩) ?_
    h hn hdue hapart
  intro k id w rest k' hplaced hw hout ih hapart
  simp only [contextOf?_expire hplaced hw] at ih
  obtain ⟨hframe, hv0⟩ := ih hapart
  have hcontexts := contexts_expire (w := w) hw
  cases hid : k.contextOf? id with
  | none =>
    rw [hid] at hcontexts
    simp only [hcontexts, Option.map_none, Option.getD_none] at hframe hv0
    refine ⟨fun c hc => hframe c (List.forall_mem_cons.mp hc).2, List.forall_mem_cons.mpr ⟨fun c hc => ?_, hv0⟩⟩
    rw [hid] at hc
    cases hc
  | some c₀ =>
    rw [hid, Option.map_some, Option.getD_some] at hcontexts
    simp only [hcontexts, isSome_get?_setRegister] at hframe hv0
    refine ⟨fun c hc i => ?_, List.forall_mem_cons.mpr ⟨fun c hc hlive => ?_, hv0⟩⟩
    · obtain ⟨hne, hrest⟩ := List.forall_mem_cons.mp hc
      rw [hframe c hrest i, Contexts.register_setRegister_of_ne]
      rintro rfl
      exact hne hid
    · -- Nobody who comes later has this context.
      rw [hid, Option.some.injEq] at hc
      subst hc
      rw [hframe c₀ ?_, Contexts.register_setRegister_self hlive (by decide), if_pos rfl]
      intro e he hc
      exact hout (List.mem_map.mpr ⟨e, he, hapart e.1 id c₀ hc hid⟩)

/-! ### The ready queue -/

/-- A thread that is queued stands between the others, which keep their order. -/
theorem ready_schedule (k : Kernel) (id : ThreadId) (priority : UInt32) :
    (k.schedule id priority).ready.entries.filter (·.thread ∉ [id]) = k.ready.entries.filter (·.thread ∉ [id]) := by
  unfold schedule ReadyQueue.insert
  by_cases hmem : k.ready.contains id = true
  · rw [if_pos hmem]
    rfl
  · rw [if_neg hmem]
    show (k.ready.entries.takeWhile (·.priority < priority) ++
      ⟨id, priority⟩ :: k.ready.entries.dropWhile (·.priority < priority)).filter (·.thread ∉ [id]) = _
    rw [List.filter_append, List.filter_cons_of_neg (by simp), ← List.filter_append, List.takeWhile_append_dropWhile]

theorem ready_expire (hw : k.waitOf? id = some w) :
    (k.expire id w).ready.entries.filter (·.thread ∉ [id]) = k.ready.entries.filter (·.thread ∉ [id]) := by
  have hdetach : (k.detach id w).ready = k.ready := by
    obtain h | ⟨e, -, h⟩ | ⟨o, -, -, -, -, h⟩ := detach_cases k id w <;> rw [h] <;> rfl
  obtain ⟨t, ht, hwait⟩ := waitOf?_eq_some.mp ((waitOf?_detach k id w id).trans hw)
  have hid := id_of_thread? ht
  have hwoken : (k.expire id w).ready = (((k.detach id w).note (.timedOut id w.kind)).awaken t (timeoutResult w)).ready :=
    (wake_of_waiting (k := (k.detach id w).note (.timedOut id w.kind)) ht hwait _).ready
  rw [hwoken, ← hdetach]
  unfold awaken
  split
  · rfl
  · rw [hid, ready_schedule]
    rfl

/-- Those that do not time out keep their order in the ready queue. -/
theorem ready_expireAll (h : k.Placed []) (hn : (due.map (·.1)).Nodup) (hdue : ∀ e ∈ due, k.waitOf? e.1 = some e.2) :
    (k.expireAll due).ready.entries.filter (·.thread ∉ due.map (·.1)) =
      k.ready.entries.filter (·.thread ∉ due.map (·.1)) := by
  refine expireAll_induction (P := fun k due k' => k'.ready.entries.filter (·.thread ∉ due.map (·.1)) =
    k.ready.entries.filter (·.thread ∉ due.map (·.1))) (fun k => rfl) ?_ h hn hdue
  intro k id w rest k' _ hw _ ih
  have hsplit : ∀ entries : List ReadyEntry, entries.filter (·.thread ∉ id :: rest.map (·.1)) =
      (entries.filter (·.thread ∉ rest.map (·.1))).filter (·.thread ∉ [id]) := by
    intro entries
    rw [List.filter_filter]
    refine List.filter_congr fun e _ => ?_
    rw [Bool.eq_iff_iff]
    simp
  rw [List.map_cons, hsplit, hsplit, ih, List.filter_comm, ready_expire hw, List.filter_comm]

/-! ### Advancing the clock -/

/-- **What the clock leaves of a kernel** when the threads `due` have timed out. -/
structure TimesOut (k k' : Kernel) (due : List ThreadId) : Prop where
  /-- A thread that was due is ready and queued, or on hold if it was, and has the result of its wait. -/
  woken : ∀ id ∈ due, ∃ t w c result, k.thread? id = some t ∧ t.wait = some w ∧ t.context = some c ∧
    result = (if w.kind = .delay then 0 else KernelError.timeout.code) ∧
    k'.thread? id = some
      { t with
        status := if t.status = .waitSuspended then .onlySuspended else .onlyReady
        wait := none
        wakeResult := result
        exitWaiters := t.exitWaiters.filter (· ∉ due) } ∧
    k'.contexts.register c Register.v0 = result.toUInt32 ∧
    (k'.ready.contains id = true ↔ t.status ≠ .waitSuspended) ∧
    (w.timeoutAddress ≠ 0 → ∀ value, k.memory.readWord w.timeoutAddress = .ok value →
      k'.memory.readWord w.timeoutAddress = .ok 0)
  /-- It stands in no queue any more. -/
  unqueued : ∀ id ∈ due, ∀ x o, k'.objects.get? x = some o → id ∉ o.waiting
  /-- Everything else is as it was, and so are the queues but for those threads. -/
  others : ∀ x, x ∉ due → k'.objects.get? x = (k.objects.get? x).map (·.dropWaiters due)
  ready : k'.ready.entries.filter (·.thread ∉ due) = k.ready.entries

/-- A thread that waits is not in the ready queue, and is alive. -/
theorem Coherent.waits (hc : k.Coherent) (hw : k.waitOf? id = some w) : ∃ t c, k.thread? id = some t ∧
    t.wait = some w ∧ t.context = some c ∧ t.status.waiting = true ∧ t.isDormant = false ∧
      ∀ e ∈ k.ready.entries, e.thread ≠ id := by
  obtain ⟨t, ht, hwait⟩ := waitOf?_eq_some.mp hw
  have hsound := hc.threads id t ht
  have hwaiting := hsound.wait.mp (by rw [hwait]; rfl)
  have hdormant : t.isDormant = false := by
    unfold Thread.isDormant
    rcases hsound.of_waiting hwaiting with hs | hs <;> rw [hs] <;> rfl
  obtain ⟨c, hcontext⟩ := Option.isSome_iff_exists.mp (hsound.context hdormant)
  refine ⟨t, c, ht, hwait, hcontext, hwaiting, hdormant, hc.ready.not_mem fun t' ht' hs => ?_⟩
  rw [ht, Option.some.injEq] at ht'
  rw [ht', hs] at hwaiting
  cases hwaiting

/-- Timeouts keep a kernel coherent. -/
theorem coherent_expireAll (hc : k.Coherent) (hn : (due.map (·.1)).Nodup)
    (hdue : ∀ e ∈ due, k.waitOf? e.1 = some e.2) : (k.expireAll due).Coherent := by
  have hmoves := Moves.expireAll (A := Label.IsRoutine) (fun _ hl => hl.isRoutine) (fun _ _ => trivial) due hn hdue
  refine hmoves.preserves (P := fun s => s.kernel.Coherent) (fun l s s' hl hm hs => hs.step hm ?_) hc
  rintro o rfl
  exact absurd hl id

/-- Waits that are due time out as they should, in a kernel that is in order. -/
theorem timesOut_expireAll (hc : k.Coherent) (hleased : k.Leased) (h : k.Placed [])
    (hn : (due.map (·.1)).Nodup) (hdue : ∀ e ∈ due, k.waitOf? e.1 = some e.2)
    (htime : ∀ e ∈ due, ∃ deadline, e.2.deadline? = some deadline ∧ deadline ≤ k.now) :
    TimesOut k (k.expireAll due) (due.map (·.1)) := by
  have hget := get?_expireAll h hn hdue
  have hthread := thread?_expireAll due h hn hdue
  have hc' := coherent_expireAll hc hn hdue
  refine ⟨fun id hid => ?_, fun id hid x o ho hmem => ?_, fun x hx => ?_, ?_⟩
  · obtain ⟨⟨id, w⟩, he, rfl⟩ := List.mem_map.mp hid
    obtain ⟨t, c, ht, hwait, hcontext, hwaiting, -, -⟩ := hc.waits (hdue _ he)
    have hstatus := (hc.threads id t ht).unpark_status hwaiting
    have ht' : (k.expireAll due).thread? id = some
        { t with
          status := if t.status = .waitSuspended then .onlySuspended else .onlyReady
          wait := none
          wakeResult := timeoutResult w
          exitWaiters := t.exitWaiters.filter (· ∉ due.map (·.1)) } := by
      rw [← hstatus, hthread, ht, Option.map_some, if_pos hid, Thread.timeOut, hwait]
      rfl
    refine ⟨t, w, c, timeoutResult w, ht, hwait, hcontext, rfl, ht', ?_, ?_, fun haddress value hvalue => ?_⟩
    · have hheld : k.contextOf? id = some c := contextOf?_eq_some.mpr ⟨t, ht, hcontext⟩
      exact (register_expireAll h hn hdue hleased.apart).2 _ he c hheld (hleased.live id c hheld)
    · rw [hc'.ready.contains_iff ht']
      dsimp only
      split
      · next hs => simp [hs, ThreadStatus.onlySuspended, ThreadStatus.onlyReady]
      · next hs => simp [hs]
    · exact ((memory_expireAll h hn hdue htime).2 _ he haddress value hvalue).readWord
  · rw [hget] at ho
    obtain ⟨o₀, -, rfl⟩ := Option.map_eq_some_iff.mp ho
    rw [Object.waiting_dropWaiters, List.mem_filter, decide_eq_true_iff] at hmem
    exact hmem.2 hid
  · simp only [hget, if_neg hx]
  · rw [ready_expireAll h hn hdue]
    refine List.filter_eq_self.mpr fun e he => decide_eq_true fun hmem => ?_
    obtain ⟨⟨id, w⟩, hw, hid⟩ := List.mem_map.mp hmem
    obtain ⟨-, -, -, -, -, -, -, hno⟩ := hc.waits (hdue _ hw)
    exact hno e he hid.symm

theorem now_expireAll (h : k.Placed []) (hn : (due.map (·.1)).Nodup) (hdue : ∀ e ∈ due, k.waitOf? e.1 = some e.2) :
    (k.expireAll due).now = k.now :=
  expireAll_induction (P := fun k _ k' => k'.now = k.now) (fun _ => rfl)
    (fun k id w _ _ _ _ _ ih => ih.trans (now_expire k id w)) h hn hdue

/-- **The overdue waits are those of all threads whose deadline has come**, since who waits has been started. -/
theorem mem_overdueThreads (hc : k.Coherent) (hleased : k.Leased) : id ∈ k.overdue.map (·.1) ↔
    ∃ t w deadline, k.thread? id = some t ∧ t.wait = some w ∧ w.deadline? = some deadline ∧ deadline ≤ k.now := by
  rw [List.mem_map]
  constructor
  · rintro ⟨e, he, rfl⟩
    obtain ⟨hwaits, deadline, hd, hle⟩ := mem_overdue.mp he
    obtain ⟨t, ht, hw⟩ := waitOf?_eq_some.mp (mem_waits.mp hwaits).2
    exact ⟨t, e.2, deadline, ht, hw, hd, hle⟩
  · rintro ⟨t, w, deadline, ht, hw, hd, hle⟩
    have hwait : k.waitOf? id = some w := waitOf?_eq_some.mpr ⟨t, ht, hw⟩
    obtain ⟨u, -, hu, -, -, -, hdormant, -⟩ := hc.waits hwait
    exact ⟨(id, w), mem_overdue.mpr ⟨mem_waits.mpr ⟨hleased.listed id u hu hdormant, hwait⟩, deadline, hd, hle⟩, rfl⟩

/-- The next deadline is before all others. -/
theorem lt_nextDeadline_iff {now : UInt64} : (∀ deadline, k.nextDeadline = some deadline → now < deadline) ↔
    ∀ e ∈ k.waits, ∀ deadline, e.2.deadline? = some deadline → now < deadline := by
  have hmin : ∀ l : List UInt64, (∀ deadline, l.min? = some deadline → now < deadline) ↔
      ∀ deadline ∈ l, now < deadline := by
    intro l
    cases hm : l.min? with
    | none => simp [List.min?_eq_none_iff.mp hm]
    | some m =>
      obtain ⟨hmem, hle⟩ := List.min?_eq_some_iff.mp hm
      constructor
      · intro h deadline hd
        exact UInt64.lt_of_lt_of_le (h m rfl) (hle deadline hd)
      · rintro h deadline ⟨⟩
        exact h m hmem
  unfold nextDeadline
  rw [hmin]
  simp only [List.mem_filterMap]
  exact ⟨fun h e he deadline hd => h deadline ⟨e, he, hd⟩, fun h deadline ⟨e, he, hd⟩ => h e he deadline hd⟩

/-- Nobody times out exactly when no deadline has come. -/
theorem overdue_eq_nil_iff : k.overdue = [] ↔ ∀ deadline, k.nextDeadline = some deadline → k.now < deadline := by
  rw [lt_nextDeadline_iff, List.eq_nil_iff_forall_not_mem]
  constructor
  · intro h e he deadline hd
    exact UInt64.not_le.mp fun hle => h e (mem_overdue.mpr ⟨he, deadline, hd, hle⟩)
  · intro h e he
    obtain ⟨hwaits, deadline, hd, hle⟩ := mem_overdue.mp he
    exact UInt64.not_le.mpr (h e hwaits deadline hd) hle

/-- After the timeouts every deadline is still to come. -/
theorem lt_deadline_expireAll (hc : k.Coherent) (hleased : k.Leased) (h : k.Placed []) (hn : k.started.Nodup)
    (ht : (k.expireAll k.overdue).thread? id = some t) (hw : t.wait = some w)
    (hd : w.deadline? = some deadline) : k.now < deadline := by
  have hover : k.overdue.Sublist k.waits := List.filter_sublist
  rw [thread?_expireAll k.overdue h ((nodup_waits hn).sublist (hover.map _))
    fun e he => (mem_waits.mp (hover.subset he)).2] at ht
  obtain ⟨t₀, ht₀, rfl⟩ := Option.map_eq_some_iff.mp ht
  by_contra hlate
  have hle := UInt64.not_lt.mp hlate
  by_cases hmem : id ∈ k.overdue.map (·.1)
  · obtain ⟨u, v, -, hu, hv, -, -⟩ := (mem_overdueThreads hc hleased).mp hmem
    rw [ht₀, Option.some.injEq] at hu
    rw [hu] at hw
    simp only [if_pos hmem, Thread.timeOut, hv, Thread.unpark] at hw
    cases hw
  · simp only [if_neg hmem] at hw
    exact hmem ((mem_overdueThreads hc hleased).mpr ⟨t₀, w, deadline, ht₀, hw, hd, hle⟩)

/-- **Timeouts fire exactly when they are due.** From any reachable state the clock wakes the threads whose deadline has
come, each of them as a timeout does, leaves everything else alone, and leaves no deadline behind that has come; it
wakes nobody exactly when the next deadline is still to come. -/
theorem timeouts_run (config : KernelConfig) (memory : Memory) (operations : List Operation) (ticks : UInt64)
    (hids : (Kernel.new config memory).handedOut operations < 2 ^ 32 - 1) :
    let k := (Kernel.new config memory).run operations
    let count := (k.advanceClock ticks).1
    let k' := (k.advanceClock ticks).2
    k'.now.toNat = min (k.now.toNat + ticks.toNat) (2 ^ 64 - 1) ∧
    (∃ due : List ThreadId, due.Nodup ∧ count = due.length ∧
      (∀ id, id ∈ due ↔ ∃ t w deadline, k.thread? id = some t ∧ t.wait = some w ∧
        w.deadline? = some deadline ∧ deadline ≤ k'.now) ∧
      TimesOut k k' due) ∧
    (∀ id t w deadline, k'.thread? id = some t → t.wait = some w → w.deadline? = some deadline → k'.now < deadline) ∧
    (count = 0 ↔ ∀ deadline, k.nextDeadline = some deadline → k'.now < deadline) := by
  intro k count k'
  obtain ⟨⟨hc, -⟩, hleased, -⟩ := leased_run config memory operations hids
  have hplaced := (placed_run config memory operations hids).2
  have hn := nodup_started_run config memory operations
  -- The clock moves first, and nobody notices.
  let k₁ : Kernel := { k with clock := k.clock.advance ticks }
  have hc₁ : k₁.Coherent := hc.sameObjects { (Quiet.refl k).toSameObjects with }
  have hleased₁ : k₁.Leased := ⟨hleased.live, hleased.apart, hleased.listed⟩
  have hplaced₁ : k₁.Placed [] := hplaced.sameRecords (.of_objects rfl)
  have hover : k₁.overdue.Sublist k₁.waits := List.filter_sublist
  have hnodup : (k₁.overdue.map (·.1)).Nodup := (nodup_waits hn).sublist (hover.map _)
  have hdue : ∀ e ∈ k₁.overdue, k₁.waitOf? e.1 = some e.2 := fun e he => (mem_waits.mp (hover.subset he)).2
  have hnow : k'.now = k₁.now := now_expireAll hplaced₁ hnodup hdue
  have htimes : TimesOut k₁ k' (k₁.overdue.map (·.1)) :=
    timesOut_expireAll hc₁ hleased₁ hplaced₁ hnodup hdue fun e he => (mem_overdue.mp he).2
  refine ⟨?_, ⟨k₁.overdue.map (·.1), hnodup, ?_, fun id => ?_, ?_⟩, fun id t w deadline ht hw hd => ?_, ?_⟩
  · rw [hnow]
    exact Clock.toNat_now_advance k.clock ticks
  · exact (List.length_map ..).symm
  · rw [hnow]
    exact mem_overdueThreads hc₁ hleased₁
  · exact ⟨htimes.woken, htimes.unqueued, htimes.others, htimes.ready⟩
  · rw [hnow]
    exact lt_deadline_expireAll hc₁ hleased₁ hplaced₁ hn ht hw hd
  · rw [hnow]
    exact List.length_eq_zero_iff.trans overdue_eq_nil_iff

/-- Four threads wait: for units of a semaphore until 100, for 50 ticks, for the end of the second thread until 100 and
on hold besides, and for units until 200. -/
def mixedWaits : List Operation :=
  [.syscall (.createThread "units" 0x08900000 32 0x1000 0), .syscall (.createThread "nap" 0x08900000 33 0x1000 0),
    .syscall (.createThread "join" 0x08900000 34 0x1000 0), .syscall (.createThread "later" 0x08900000 35 0x1000 0),
    .syscall (.startThread 1 0 0), .syscall (.startThread 2 0 0), .syscall (.startThread 3 0 0),
    .syscall (.startThread 4 0 0), .syscall (.createSemaphore "pool" 0 0 5),
    .guestWrite 0x08800000 [100, 0, 0, 0], .guestWrite 0x08800004 [100, 0, 0, 0], .guestWrite 0x08800008 [200, 0, 0, 0],
    .dispatch, .syscall (.waitSemaphore 5 2 0x08800000 false), .dispatch, .syscall (.delayThread 50 false),
    .dispatch, .syscall (.waitThreadEnd 2 0x08800004 false), .dispatch,
    .syscall (.waitSemaphore 5 1 0x08800008 false), .suspendThread 3]

/-- At 100 three of the four waits end, one of them the wait for a thread whose own wait ends, too. -/
theorem timeouts_run_mixedWaits :
    (Kernel.new {} {}).handedOut mixedWaits < 2 ^ 32 - 1 ∧
      ((Kernel.new {} {}).run mixedWaits).nextDeadline = some 50 ∧
      (((Kernel.new {} {}).run mixedWaits).advanceClock 100).1 = 3 ∧
      (((Kernel.new {} {}).run mixedWaits).advanceClock 100).2.nextDeadline = some 200 ∧
      ∃ due : List ThreadId, due.Nodup ∧ due.length = 3 ∧
        TimesOut ((Kernel.new {} {}).run mixedWaits) (((Kernel.new {} {}).run mixedWaits).advanceClock 100).2 due := by
  have hids : (Kernel.new {} {}).handedOut mixedWaits < 2 ^ 32 - 1 := handedOut_lt (by decide)
  have hthree : (((Kernel.new {} {}).run mixedWaits).advanceClock 100).1 = 3 := by decide +kernel
  obtain ⟨-, ⟨due, hnodup, hcount, -, htimes⟩, -, -⟩ := timeouts_run {} {} mixedWaits 100 hids
  exact ⟨hids, by decide +kernel, hthree, by decide +kernel, due, hnodup, hcount.symm.trans hthree, htimes⟩

end Kernel
end GuestKernel
