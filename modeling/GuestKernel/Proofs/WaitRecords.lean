/-
# The two records of a wait

That a thread waits on an object is on record twice: in the thread, which knows the object and what it asked for, and in
the object, which has the thread in a queue. What a move of the kernel does to the two records is one of these, or for
the end of a thread two of them.

| relation | queues | waits |
| --- | --- | --- |
| `SameRecords` | | |
| `Releases` | entries leave those of one object | |
| `Enters` | a thread enters those of one object | |
| `Rewaits` | | that of one thread begins or ends |

Source: specification, 4.4.
-/

import GuestKernel.Proofs.Coherence
import GuestKernel.Proofs.QueueEntries
import GuestKernel.Proofs.ObjectMoves

namespace GuestKernel
namespace Kernel

variable {k k' k₁ k₂ k₃ : Kernel} {L : List ThreadId} {id : ThreadId} {t : Thread} {w : Wait} {o o' : Object}

/-- The entries in the queues of the object under an id. -/
def queues (k : Kernel) (x : ObjectId) : List (ThreadId × Demand) := ((k.objects.get? x).map Object.entries).getD []

theorem queues_of_get? {x : ObjectId} (h : k.objects.get? x = some o) : k.queues x = o.entries := by
  unfold queues
  rw [h]
  rfl

theorem queues_new (config : KernelConfig) (memory : Memory) (x : ObjectId) :
    (Kernel.new config memory).queues x = [] := by
  unfold queues
  rw [get?_new]
  rfl

theorem queues_put (o : Object) (x : ObjectId) :
    (k.put o).queues x = if o.id = x then o.entries else k.queues x := by
  unfold queues
  show ((ObjectTable.get? (k.objects.put o) x).map Object.entries).getD [] = _
  rw [ObjectTable.get?_put]
  split <;> rfl

/-- A thread is stored with the same threads joined on it. -/
theorem queues_putThread (t' : Thread) (ht : k.thread? t'.id = some t) (hexit : t'.exitWaiters = t.exitWaiters)
    (x : ObjectId) : (k.putThread t').queues x = k.queues x := by
  refine (queues_put (.thread t') x).trans ?_
  split
  · next hx =>
    rw [← hx, queues_of_get? (x := (Object.thread t').id) (ObjectTable.thread?_eq_some.mp ht)]
    exact congrArg (List.map _) hexit
  · rfl

theorem waitOf?_putThread (t : Thread) (x : ThreadId) :
    (k.putThread t).waitOf? x = if t.id = x then t.wait else k.waitOf? x := by
  unfold waitOf?
  rw [thread?_putThread]
  split <;> rfl

/-! ### The same records -/

/-- The same threads stand in the same queues and have the same waits. -/
structure SameRecords (k k' : Kernel) : Prop where
  queues : ∀ x, k'.queues x = k.queues x
  waits : ∀ x, k'.waitOf? x = k.waitOf? x

theorem SameRecords.of_objects (h : k'.objects = k.objects) : SameRecords k k' where
  queues x := by rw [Kernel.queues, h, Kernel.queues]
  waits x := by rw [waitOf?, thread?, h, waitOf?, thread?]

theorem SameRecords.trans (h : SameRecords k₁ k₂) (h' : SameRecords k₂ k₃) : SameRecords k₁ k₃ where
  queues x := (h'.queues x).trans (h.queues x)
  waits x := (h'.waits x).trans (h.waits x)

/-- A thread changes in something else than its wait and those that joined it. -/
theorem sameRecords_putThread (t' : Thread) (ht : k.thread? t'.id = some t) (hwait : t'.wait = t.wait)
    (hexit : t'.exitWaiters = t.exitWaiters) : SameRecords k (k.putThread t') where
  queues := queues_putThread t' ht hexit
  waits x := by
    rw [waitOf?_putThread]
    split
    · next hx => rw [← hx, waitOf?, ht, hwait, Option.bind_some]
    · rfl

theorem Rearranges.sameRecords (h : Rearranges k k') : SameRecords k k' where
  queues x := by
    obtain heq | ⟨t, t', ht, ht', hties⟩ := h.objects x
    · rw [queues, heq, queues]
    · rw [queues_of_get? ht, queues_of_get? ht']
      exact congrArg (List.map _) hties.exitWaiters
  waits x := by
    obtain heq | ⟨t, t', ht, ht', hties⟩ := h.objects x
    · rw [waitOf?, thread?, ObjectTable.thread?_eq_bind, heq, ← ObjectTable.thread?_eq_bind, ← thread?, waitOf?]
    · have hthread := ObjectTable.thread?_eq_some.mpr ht
      have hthread' := ObjectTable.thread?_eq_some.mpr ht'
      rw [waitOf?, waitOf?, thread?, thread?, hthread, hthread', Option.bind_some, Option.bind_some, hties.wait]

theorem sameRecords_launch (ht : k.thread? t.id = some t) (context : ContextId) :
    SameRecords k (k.launch t context) := by
  have hput : SameRecords k (k.putThread { t with context := some context, status := .onlyReady }) :=
    sameRecords_putThread _ ht rfl rfl
  exact hput.trans (.of_objects (objects_launch k t context))

/-- Nobody is queued on a new object, and a new thread does not wait. -/
theorem sameRecords_create (hnew : o.IsNew) (hfresh : k.objects.get? o.id = none) :
    SameRecords k { k with objects := k.objects.skipId.put o } where
  queues x := by
    show ((ObjectTable.get? (k.objects.skipId.put o) x).map Object.entries).getD [] = _
    rw [ObjectTable.get?_put]
    split
    · next hx =>
      rw [← hx, queues, hfresh]
      exact hnew.entries_eq
    · rfl
  waits x := by
    have hview : ({ k with objects := k.objects.skipId.put o } : Kernel).thread? x =
        if o.id = x then o.thread? else k.thread? x := ObjectTable.thread?_put o x
    rw [waitOf?, hview, waitOf?]
    split
    · next hx =>
      rw [← hx, thread?, ObjectTable.thread?_eq_bind, hfresh]
      cases ht : o.thread? with
      | none => rfl
      | some t =>
        rw [Object.thread?_eq_some.mp ht] at hnew
        exact hnew.2.1
    · rfl

end Kernel

/-- The label of a move that leaves both records of every wait alone. -/
def Label.KeepsRecords : Label → Prop
  | quiet | load | resource | reserve | create _ | edit _ _ | launch _ | strip _ => True
  | l => l.Rearranges

/-- Moves that neither park nor wake anybody leave waits and queues alone. -/
theorem Move.sameRecords {l : Label} {s s' : Stage} (hm : Move l s s') (hfresh : l.Fresh s.kernel)
    (hl : l.KeepsRecords) : s.kernel.SameRecords s'.kernel := by
  have hrearranges := hm.rearranges
  cases hm with
  | quiet hq | load hq => exact .of_objects hq.objects
  | resource hq | reserve hq => exact .of_objects hq.objects
  | create hid hnew => exact Kernel.sameRecords_create hnew (hfresh _ rfl)
  | @edit k L t t' ht hlife =>
    rw [hlife]
    exact Kernel.sameRecords_putThread _ ht rfl rfl
  | @launch k L t registers ht =>
    have hc := Kernel.sameObjects_allocateContext k t.entry registers
    exact .trans (.of_objects hc.objects) (Kernel.sameRecords_launch ((hc.thread? _).trans ht) _)
  | @strip k L t contexts ht => exact (Kernel.sameRecords_putThread t.strip ht rfl rfl).trans (.of_objects rfl)
  | _ => exact (hrearranges hl).sameRecords

namespace Kernel

variable {k k' k₁ k₂ k₃ : Kernel} {L : List ThreadId} {id : ThreadId} {t : Thread} {w : Wait} {o o' : Object}

/-! ### Leaving a queue -/

/-- Entries leave the queues of one object. -/
structure Releases (k k' : Kernel) (x : ObjectId) (gone : List (ThreadId × Demand)) : Prop where
  entries : (k.queues x).Perm (gone ++ k'.queues x)
  frame : ∀ y, y ≠ x → k'.queues y = k.queues y
  waits : ∀ y, k'.waitOf? y = k.waitOf? y

/-- A call on an object that is no thread lets go waiters. -/
theorem releases_change (ho : k.objects.get? o.id = some o) (hc : o.Change o' L) :
    ∃ gone, Releases k (k.put o') o.id gone ∧ L.Perm (gone.map (·.1)) := by
  obtain ⟨gone, hperm, hoff⟩ := hc.releases
  refine ⟨gone, ⟨?_, fun y hy => ?_, fun y => ?_⟩, hoff⟩
  · rw [queues_put, hc.id_eq, if_pos rfl, queues_of_get? ho]
    exact hperm
  · rw [queues_put, hc.id_eq, if_neg fun heq => hy heq.symm]
  · rw [waitOf?, thread?_put_of_kind_ne o' ho hc.kind_ne_thread hc.id_eq hc.kind_eq, waitOf?]

/-- An object goes that is no thread which waits. -/
theorem releases_erase (ho : k.objects.get? o.id = some o) (hidle : k.waitOf? o.id = none)
    (hobjects : k'.objects = k.objects.erase o.id) : Releases k k' o.id o.entries := by
  have hqueues : ∀ x, k'.queues x = if o.id = x then [] else k.queues x := by
    intro x
    unfold queues
    rw [hobjects, ObjectTable.get?_erase]
    split <;> rfl
  refine ⟨?_, fun y hy => ?_, fun y => ?_⟩
  · rw [hqueues, if_pos rfl, List.append_nil, queues_of_get? ho]
  · rw [hqueues, if_neg fun heq => hy heq.symm]
  · have hview : k'.thread? y = if o.id = y then none else k.thread? y := by
      rw [thread?, hobjects, ObjectTable.thread?_erase]
      rfl
    rw [waitOf?, hview]
    split
    · next hy =>
      rw [← hy, hidle]
      rfl
    · rfl

/-- A dead thread goes; it does not wait. -/
theorem releases_bury (hc : k.Coherent) (ht : k.thread? t.id = some t) (hd : t.status.dead = true)
    (hobjects : k'.objects = k.objects.erase t.id) : Releases k k' t.id (Object.thread t).entries := by
  have hsound := hc.threads t.id t ht
  refine releases_erase (o := .thread t) (ObjectTable.thread?_eq_some.mp ht) ?_ hobjects
  show k.waitOf? t.id = none
  rw [waitOf?, ht, Option.bind_some]
  exact hsound.wait_eq_none (by rw [hsound.of_dead hd]; rfl)

/-- An object that is no thread waits for nothing. -/
theorem waitOf?_of_kind_ne (ho : k.objects.get? o.id = some o) (hkind : o.kind ≠ .thread) :
    k.waitOf? o.id = none := by
  rw [waitOf?, thread?, ObjectTable.thread?_eq_bind, ho, Option.bind_some, Object.thread?_eq_none.mpr hkind]
  rfl

/-- A thread leaves its queue, or has no queue or does not stand in it. -/
theorem detach_records (honce : ((k.queues w.handle).map (·.1)).Nodup) (id : ThreadId) :
    ((w.kind = .sleep ∨ w.kind = .delay ∨ id ∉ (k.queues w.handle).map (·.1)) ∧ SameRecords k (k.detach id w)) ∨
      ∃ gone, Releases k (k.detach id w) w.handle gone ∧ [id].Perm (gone.map (·.1)) := by
  have hwaits := waitOf?_detach k id w
  unfold Kernel.detach at hwaits ⊢
  by_cases hkind : w.kind = .sleep ∨ w.kind = .delay
  · rw [if_pos hkind]
    exact Or.inl ⟨hkind.imp_right Or.inl, .of_objects rfl⟩
  rw [if_neg hkind] at hwaits ⊢
  cases ho : k.objects.get? w.handle with
  | none =>
    refine Or.inl ⟨Or.inr (Or.inr ?_), .of_objects rfl⟩
    rw [queues, ho]
    exact List.not_mem_nil
  | some o =>
    rw [ho] at hwaits
    dsimp only at hwaits ⊢
    rw [queues_of_get? ho, Object.map_entries] at honce ⊢
    by_cases hmem : o.waiting.contains id = true
    · rw [if_pos hmem] at hwaits ⊢
      have hid := ObjectTable.id_of_get? ho
      obtain ⟨gone, hperm, hoff⟩ := Object.releases_removeWaiter honce (List.contains_iff_mem.mp hmem)
      refine Or.inr ⟨gone, ⟨?_, fun y hy => ?_, hwaits⟩, hoff⟩
      · rw [queues_put, Object.id_removeWaiter, if_pos hid, queues_of_get? ho]
        exact hperm
      · rw [queues_put, Object.id_removeWaiter, if_neg fun heq => hy (heq.symm.trans hid)]
    · rw [if_neg hmem]
      exact Or.inl ⟨Or.inr (Or.inr fun hin => hmem (List.contains_iff_mem.mpr hin)), .of_objects rfl⟩

/-! ### Entering a queue -/

/-- A thread enters the queues of one object. -/
structure Enters (k k' : Kernel) (x : ObjectId) (id : ThreadId) (d : Demand) : Prop where
  entries : (k'.queues x).Perm ((id, d) :: k.queues x)
  frame : ∀ y, y ≠ x → k'.queues y = k.queues y
  waits : ∀ y, k'.waitOf? y = k.waitOf? y

/-- A parked thread is queued with what it asks for. -/
theorem enters_enqueue (ho : k.objects.get? o.id = some o) (hq : o.Enqueues t.id t.priority w o') :
    ∃ d, w.Asks d ∧ Enters k (k.put o') w.handle t.id d := by
  obtain ⟨d, hasks, hperm⟩ := hq.entries
  have hhandle := hq.handle_eq
  have hid := hq.id_eq
  refine ⟨d, hasks, ⟨?_, fun y hy => ?_, fun y => ?_⟩⟩
  · rw [queues_put, hid, hhandle, if_pos rfl, queues_of_get? ho]
    exact hperm
  · rw [queues_put, hid, if_neg fun heq => hy (hhandle.trans heq).symm]
  · by_cases hkind : o.kind = .thread
    · -- A thread that is joined keeps its own wait.
      cases hq with
      | @join target =>
        have htarget : k.thread? target.id = some target := ObjectTable.thread?_eq_some.mpr ho
        refine (waitOf?_putThread { target with exitWaiters := target.exitWaiters ++ [t.id] } y).trans ?_
        split
        · next hy =>
          rw [← hy]
          show target.wait = (k.thread? target.id).bind (·.wait)
          rw [htarget, Option.bind_some]
        · rfl
      | _ => cases hkind
    · rw [waitOf?, thread?_put_of_kind_ne o' ho hkind hid hq.kind_eq, waitOf?]

/-- Nobody waits on itself. -/
theorem ne_of_enqueues (ho : k.objects.get? o.id = some o) (ht : k.thread? t.id = some t)
    (hq : o.Enqueues t.id t.priority w o') : t.id ≠ w.handle := by
  rw [hq.handle_eq]
  intro heq
  cases hq with
  | join _ _ _ hne => exact hne heq
  | _ =>
    rw [heq] at ht
    cases (ObjectTable.thread?_eq_some.mp ht).symm.trans ho

/-! ### Beginning and ending a wait -/

/-- The wait of one thread begins or ends. -/
structure Rewaits (k k' : Kernel) (id : ThreadId) (wait : Option Wait) : Prop where
  queues : ∀ x, k'.queues x = k.queues x
  wait_eq : k'.waitOf? id = wait
  frame : ∀ y, y ≠ id → k'.waitOf? y = k.waitOf? y

theorem rewaits_putThread (t' : Thread) (ht : k.thread? t'.id = some t) (hexit : t'.exitWaiters = t.exitWaiters) :
    Rewaits k (k.putThread t') t'.id t'.wait where
  queues := queues_putThread t' ht hexit
  wait_eq := (waitOf?_putThread t' t'.id).trans (if_pos rfl)
  frame y hy := (waitOf?_putThread t' y).trans (if_neg fun heq => hy heq.symm)

theorem Rewaits.sameRecords {wait : Option Wait} (h : Rewaits k₁ k₂ id wait) (hs : SameRecords k₂ k₃) :
    Rewaits k₁ k₃ id wait where
  queues x := (hs.queues x).trans (h.queues x)
  wait_eq := (hs.waits id).trans h.wait_eq
  frame y hy := (hs.waits y).trans (h.frame y hy)

theorem rewaits_park (ht : k.thread? t.id = some t) (w : Wait) : Rewaits k (k.park t w) t.id (some w) :=
  (rewaits_putThread (t.park w) ht rfl).sameRecords (.of_objects rfl)

/-- A thread that waits goes on. -/
theorem rewaits_wake (ht : k.thread? t.id = some t) (hw : t.wait = some w) (result : Int32) :
    Rewaits k (k.wake t.id result) t.id none := by
  have hput : Rewaits k (k.putThread (t.unpark result)) t.id none := rewaits_putThread (t.unpark result) ht rfl
  refine Rewaits.sameRecords ?_ (.of_objects (wake_of_waiting ht hw result).objects)
  unfold awaken
  split
  · exact hput
  · exact hput.sameRecords (.of_objects (objects_schedule ..))

/-! ### The end of a thread -/

theorem queues_fell (t : Thread) (exitCode : Int32) (x : ObjectId) :
    (k.fell t exitCode).queues x = if t.id = x then [] else k.queues x :=
  queues_put (.thread (t.die exitCode)) x

theorem waitOf?_fell (t : Thread) (exitCode : Int32) (x : ThreadId) :
    (k.fell t exitCode).waitOf? x = if t.id = x then none else k.waitOf? x :=
  waitOf?_putThread (t.die exitCode) x

/-- Those that joined a thread are the entries in its queue. -/
theorem queues_of_thread? (ht : k.thread? t.id = some t) : (k.queues t.id).map (·.1) = t.exitWaiters := by
  rw [queues_of_get? (ObjectTable.thread?_eq_some.mp ht)]
  exact Object.map_entries (.thread t)

/-- A thread that does not wait on itself is the same when it has left its queue. -/
theorem thread?_detach_self (hne : w.kind ≠ .sleep → w.kind ≠ .delay → t.id ≠ w.handle) (ht : k.thread? t.id = some t) :
    (k.detach t.id w).thread? t.id = some t := by
  obtain hsame | ⟨-, -, ⟨hsleep, hdelay, hid⟩, -⟩ := thread?_detach k t.id w t.id
  · rw [hsame, ht]
  · exact absurd hid.symm (hne hsleep hdelay)

/-- It may leave the queue before it dies or after. -/
theorem detach_fell (hne : w.kind ≠ .sleep → w.kind ≠ .delay → t.id ≠ w.handle) (exitCode : Int32) :
    (k.fell t exitCode).detach t.id w = (k.detach t.id w).fell t exitCode := by
  unfold Kernel.detach
  by_cases hkind : w.kind = .sleep ∨ w.kind = .delay
  · rw [if_pos hkind, if_pos hkind]
  · rw [if_neg hkind, if_neg hkind]
    have hne' : t.id ≠ w.handle := hne (fun hc => hkind (Or.inl hc)) fun hc => hkind (Or.inr hc)
    have hget : (k.fell t exitCode).objects.get? w.handle = k.objects.get? w.handle :=
      (ObjectTable.get?_put ..).trans (if_neg hne')
    rw [hget]
    cases ho : k.objects.get? w.handle with
    | none => rfl
    | some o =>
      dsimp only
      by_cases hc : o.waiting.contains t.id = true
      · rw [if_pos hc, if_pos hc]
        have hcomm : (k.objects.put (.thread (t.die exitCode))).put (o.removeWaiter t.id) =
            (k.objects.put (o.removeWaiter t.id)).put (.thread (t.die exitCode)) := by
          refine ObjectTable.put_comm fun heq => hne' ?_
          rw [Object.id_removeWaiter, ObjectTable.id_of_get? ho] at heq
          exact heq
        unfold Kernel.fell Kernel.putThread Kernel.put
        dsimp only
        rw [hcomm]
      · rw [if_neg hc, if_neg hc]
        rfl

end Kernel
end GuestKernel
