/-
# What waking leaves behind

To wake a thread that waits is to end its wait on record, to tell the guest how much of the timeout is left, and to put
the result where the guest looks for it. Who does not wait is left alone, and so is everybody else.

| part of the kernel | after `wake` |
| --- | --- |
| the thread | `Thread.woken` |
| guest memory | `tellRemaining` |
| contexts | the result in `v0` (`contexts_wake`) |
| the journal | the thread and the result (`wakings_wake`) |

The objects other than threads, the clock and the callback that runs stay as they are.

Source: specification, 4.4.
-/

import GuestKernel.Proofs.OperationMoves

namespace GuestKernel

/-- The thread after a wake, which ends its wait if it has one. -/
def Thread.woken (t : Thread) (result : Int32) : Thread := if t.wait.isSome then t.unpark result else t

namespace Thread

variable {t : Thread} {w : Wait}

theorem woken_of_waiting (h : t.wait = some w) (result : Int32) : t.woken result = t.unpark result :=
  if_pos (by rw [h]; rfl)

theorem woken_of_idle (h : t.wait = none) (result : Int32) : t.woken result = t :=
  if_neg (by rw [h]; decide)

theorem wait_woken (t : Thread) (result : Int32) : (t.woken result).wait = none := by
  cases h : t.wait with
  | none => rw [woken_of_idle h, h]
  | some w => rw [woken_of_waiting h, unpark]

theorem woken_woken (t : Thread) (result result' : Int32) : (t.woken result).woken result' = t.woken result :=
  woken_of_idle (wait_woken t result) result'

end Thread

/-- The memory after a word has been written through a pointer; one that is null or bad is passed over. -/
def Memory.tell (m : Memory) (address value : UInt32) : Memory :=
  match m.writeOptional address value with
  | .ok m' => m'
  | .error _ => m

namespace Kernel

variable {k k' : Kernel} {id x : ThreadId} {t : Thread} {w : Wait} {result : Int32}

/-- A result in `v0` of a thread's context, if it has one. -/
def giveResult (k : Kernel) (t : Thread) (result : Int32) : Kernel :=
  match t.context with
  | some context => k.setRegister context Register.v0 result.toUInt32
  | none => k

/-- Waking a thread that waits, step by step. -/
theorem wake_eq (ht : k.thread? id = some t) (hw : t.wait = some w) (result : Int32) :
    k.wake id result =
      (let k₁ := ((k.putThread (t.unpark result)).writeRemaining id w).giveResult t result
       if t.status.suspended then k₁ else k₁.schedule id t.priority).note (.woken id w.kind result) := by
  unfold wake
  rw [ht]
  dsimp only
  rw [hw]
  rfl

theorem memory_giveResult (k : Kernel) (t : Thread) (result : Int32) : (k.giveResult t result).memory = k.memory := by
  unfold giveResult
  split <;> rfl

theorem contexts_giveResult (k : Kernel) (t : Thread) (result : Int32) : (k.giveResult t result).contexts =
    (t.context.map fun c => k.contexts.setRegister c Register.v0 result.toUInt32).getD k.contexts := by
  unfold giveResult
  cases t.context <;> rfl

/-! ### Threads -/

/-- A wake changes the thread that it is for, and no other. -/
theorem thread?_wake (k : Kernel) (x : ThreadId) (result : Int32) (id : ThreadId) :
    (k.wake x result).thread? id = if id = x then (k.thread? id).map (·.woken result) else k.thread? id := by
  by_cases hx : id = x
  · subst hx
    rw [if_pos rfl]
    cases h : k.thread? id with
    | none =>
      rw [wake_of_unknown h]
      exact h
    | some t =>
      rw [Option.map_some]
      cases hw : t.wait with
      | none =>
        rw [wake_of_idle h hw, Thread.woken_of_idle hw]
        exact h
      | some w =>
        rw [(wake_of_waiting h hw result).thread?, thread?_awaken, if_pos (id_of_thread? h), Thread.woken_of_waiting hw]
  · rw [if_neg hx, thread?_wake_of_ne hx]

/-- Updates that each wake one thread wake those that they are about. -/
theorem thread?_foldl {α : Type} {f : Kernel → α → Kernel} (who : α → ThreadId)
    (hf : ∀ k a id, (f k a).thread? id = if id = who a then (k.thread? id).map (·.woken result) else k.thread? id)
    (as : List α) (k : Kernel) (id : ThreadId) : (as.foldl f k).thread? id =
      if id ∈ as.map who then (k.thread? id).map (·.woken result) else k.thread? id := by
  induction as generalizing k with
  | nil => rfl
  | cons a rest ih =>
    rw [List.foldl_cons, ih, hf, List.map_cons]
    by_cases hid : id = who a
    · have hidem : (Thread.woken · result) ∘ (Thread.woken · result) = (Thread.woken · result) :=
        funext fun t => t.woken_woken result result
      have hmem : id ∈ who a :: rest.map who := hid ▸ List.mem_cons_self ..
      rw [if_pos hid, if_pos hmem, Option.map_map, hidem, ite_self]
    · simp only [List.mem_cons, hid, false_or, if_false]

/-- Wakes change the threads that they are for, and no others. -/
theorem thread?_wakeAll (k : Kernel) (ids : List ThreadId) (result : Int32) (id : ThreadId) :
    (k.wakeAll ids result).thread? id = if id ∈ ids then (k.thread? id).map (·.woken result) else k.thread? id := by
  have hall := thread?_foldl (fun x => x) (fun k x id => thread?_wake k x result id) ids k id
  rwa [List.map_id'] at hall

/-! ### Guest memory -/

/-- The memory after a thread has been told how much of its timeout is left. -/
def tellRemaining (k : Kernel) (m : Memory) (id : ThreadId) : Memory :=
  match k.waitOf? id with
  | some w => ((w.remaining? k.now).map (m.tell w.timeoutAddress)).getD m
  | none => m

theorem memory_schedule (k : Kernel) (id : ThreadId) (priority : UInt32) :
    (k.schedule id priority).memory = k.memory := by
  unfold schedule
  split <;> rfl

/-- The time that is left of a wait is told where the guest asked for it. -/
theorem memory_writeRemaining (k : Kernel) (id : ThreadId) (w : Wait) :
    (k.writeRemaining id w).memory = ((w.remaining? k.now).map (k.memory.tell w.timeoutAddress)).getD k.memory := by
  unfold writeRemaining
  by_cases haddress : w.timeoutAddress = 0
  · rw [if_pos haddress, haddress]
    cases w.remaining? k.now <;> rfl
  · rw [if_neg haddress]
    cases w.remaining? k.now with
    | none => rfl
    | some remaining =>
      rw [Option.map_some, Option.getD_some, Memory.tell, Memory.writeOptional, if_neg haddress]
      dsimp only
      cases k.memory.writeWord w.timeoutAddress remaining <;> rfl

/-- **Waking writes to guest memory what is left of the timeout**, and nothing else. -/
theorem memory_wake (k : Kernel) (id : ThreadId) (result : Int32) :
    (k.wake id result).memory = k.tellRemaining k.memory id := by
  unfold tellRemaining waitOf?
  cases ht : k.thread? id with
  | none => rw [wake_of_unknown ht]; rfl
  | some t =>
    rw [Option.bind_some]
    cases hw : t.wait with
    | none => rw [wake_of_idle ht hw]; rfl
    | some w =>
      rw [wake_eq ht hw]
      show (if t.status.suspended then _ else _ : Kernel).memory = _
      rw [apply_ite Kernel.memory, memory_schedule, ite_self, memory_giveResult, memory_writeRemaining]
      rfl

theorem tellRemaining_congr (hwait : k'.waitOf? id = k.waitOf? id) (hnow : k'.now = k.now) (m : Memory) :
    k'.tellRemaining m id = k.tellRemaining m id := by
  unfold tellRemaining
  rw [hwait, hnow]

theorem now_wake (k : Kernel) (id : ThreadId) (result : Int32) : (k.wake id result).now = k.now := by
  obtain ⟨e, heq, -⟩ | ⟨t, w, rfl, ht, hw⟩ := wake_cases k id result
  · rw [heq]
    rfl
  · have hquiet := wake_of_waiting ht hw result
    have hclock : (k.awaken t result).clock = k.clock := by
      unfold awaken schedule
      split
      · rfl
      · split <;> rfl
    rw [now, hquiet.clock, hclock, now]

/-! ### Registers -/

theorem contexts_writeRemaining (k : Kernel) (id : ThreadId) (w : Wait) :
    (k.writeRemaining id w).contexts = k.contexts := by
  unfold writeRemaining
  split
  · rfl
  · split
    · rfl
    · split <;> rfl

/-- **The result of a wait is in `v0`** of the thread's context. -/
theorem contexts_wake (ht : k.thread? id = some t) (hw : t.wait = some w) (result : Int32) :
    (k.wake id result).contexts =
      (t.context.map fun c => k.contexts.setRegister c Register.v0 result.toUInt32).getD k.contexts := by
  rw [wake_eq ht hw]
  show (if t.status.suspended then _ else _ : Kernel).contexts = _
  rw [apply_ite Kernel.contexts, contexts_schedule, ite_self, contexts_giveResult, contexts_writeRemaining]
  rfl

/-! ### The journal -/

theorem wakings_noteAll {es : List Event} (h : ∀ e ∈ es, e.wakes? = none) : (k.noteAll es).wakings = k.wakings := by
  show (es.reverse ++ k.journal).filterMap Event.wakes? = _
  rw [List.filterMap_append, List.filterMap_eq_nil_iff.mpr fun e he => h e (List.mem_reverse.mp he)]
  rfl

theorem wakings_schedule (k : Kernel) (id : ThreadId) (priority : UInt32) :
    (k.schedule id priority).wakings = k.wakings := by
  have hevents : ∀ e ∈ k.ready.insertEvents id priority, e.wakes? = none := by
    unfold ReadyQueue.insertEvents
    split <;> simp [Event.wakes?]
  unfold schedule
  split
  · exact wakings_noteAll hevents
  · rfl

theorem wakings_writeRemaining (k : Kernel) (id : ThreadId) (w : Wait) :
    (k.writeRemaining id w).wakings = k.wakings := by
  unfold writeRemaining
  split
  · rfl
  · split
    · rfl
    · split <;> rfl

theorem wakings_giveResult (k : Kernel) (t : Thread) (result : Int32) :
    (k.giveResult t result).wakings = k.wakings := by
  have hevents : ∀ c, ∀ e ∈ k.contexts.setRegisterEvents c Register.v0, e.wakes? = none := by
    intro c
    unfold Contexts.setRegisterEvents
    split_ifs <;> simp [Event.wakes?]
  unfold giveResult
  split
  · exact wakings_noteAll (hevents _)
  · rfl

/-- **Waking a thread that waits is on record**, with the result. -/
theorem wakings_wake (hw : k.waitOf? id = some w) (result : Int32) :
    (k.wake id result).wakings = (id, result) :: k.wakings := by
  obtain ⟨t, ht, hwait⟩ := waitOf?_eq_some.mp hw
  rw [wake_eq ht hwait]
  show (id, result) :: (if t.status.suspended then _ else _ : Kernel).wakings = _
  rw [apply_ite wakings, wakings_schedule, ite_self, wakings_giveResult, wakings_writeRemaining]
  rfl

/-- Threads that wait are woken one after the other. -/
theorem wakings_wakeAll {ids : List ThreadId} (hn : ids.Nodup) (hw : ∀ id ∈ ids, (k.waitOf? id).isSome = true)
    (result : Int32) : (k.wakeAll ids result).wakings = (ids.map (·, result)).reverse ++ k.wakings := by
  induction ids generalizing k with
  | nil => rfl
  | cons id rest ih =>
    obtain ⟨hid, hrest⟩ := List.nodup_cons.mp hn
    obtain ⟨w, hwait⟩ := Option.isSome_iff_exists.mp (hw id (List.mem_cons_self ..))
    have hothers : ∀ x ∈ rest, ((k.wake id result).waitOf? x).isSome = true := by
      intro x hx
      have hne : x ≠ id := fun heq => hid (heq ▸ hx)
      rw [waitOf?, thread?_wake_of_ne hne]
      exact hw x (List.mem_cons_of_mem _ hx)
    show ((k.wake id result).wakeAll rest result).wakings = _
    rw [ih hrest hothers, wakings_wake hwait]
    simp

end Kernel
end GuestKernel
