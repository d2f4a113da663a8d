/-
# Lookups in the object table

The table is read through `get?` and through one partial view per kind of object. A view answers an id exactly when
`get?` answers it with an object of that kind, and an object that stands in the table has the id it stands under, so
what a lookup finds after `put` or `erase` is decided by comparing ids.

Two tables that answer all lookups alike and hand out the same id next are equal (`ObjectTable.ext_get?`), which lets
updates of different objects change places.

Source: specification, 2 and 3.
-/

import GuestKernel.Kernel.Operation
import Mathlib.Tactic.Common

namespace GuestKernel

/-- The thread that an object is, if it is one. -/
def Object.thread? : Object → Option Thread
  | .thread t => some t
  | _ => none

theorem Object.thread?_eq_some {o : Object} {t : Thread} : o.thread? = some t ↔ o = .thread t := by
  cases o <;> simp [Object.thread?]

theorem Object.thread?_eq_none {o : Object} : o.thread? = none ↔ o.kind ≠ .thread := by
  cases o <;> simp [Object.thread?, Object.kind]

namespace ObjectTable

variable {t : ObjectTable} {id : ObjectId} {o : Object} {x : Semaphore}

/-- An object stands under its own id. -/
theorem id_of_get? (h : t.get? id = some o) : o.id = id := t.keyed id o h

theorem get?_id (h : t.get? id = some o) : o.id = id ∧ t.get? o.id = some o :=
  ⟨id_of_get? h, (id_of_get? h).symm ▸ h⟩

theorem ext_get? {t' : ObjectTable} (h : ∀ id, t.get? id = t'.get? id) (hn : t.nextId = t'.nextId) :
    t = t' := by
  apply ObjectTable.ext
  · exact Std.ExtTreeMap.ext_getElem? fun {id} => h id
  · exact hn

theorem thread?_eq_bind : t.thread? id = (t.get? id).bind Object.thread? := by
  unfold thread?
  split
  · next x h => rw [h]; rfl
  · next h =>
    cases hg : t.get? id with
    | none => rfl
    | some o => exact (Object.thread?_eq_none.mpr fun hk => by cases o <;> simp_all [Object.kind]).symm

theorem thread?_eq_some {x : Thread} : t.thread? id = some x ↔ t.get? id = some (.thread x) := by
  rw [thread?_eq_bind, Option.bind_eq_some_iff]
  constructor
  · rintro ⟨o, ho, hx⟩
    rw [ho, Object.thread?_eq_some.mp hx]
  · intro h
    exact ⟨_, h, rfl⟩

theorem callback?_eq_some {x : Callback} : t.callback? id = some x ↔ t.get? id = some (.callback x) := by
  unfold callback?
  split <;> simp_all

theorem semaphore?_eq_some : t.semaphore? id = some x ↔ t.get? id = some (.semaphore x) := by
  unfold semaphore?
  split <;> simp_all

theorem keyed_semaphore? (h : t.semaphore? id = some x) : x.id = id ∧ t.get? x.id = some (.semaphore x) :=
  get?_id (semaphore?_eq_some.mp h)

theorem eventFlag?_eq_some {x : EventFlag} :
    t.eventFlag? id = some x ↔ t.get? id = some (.eventFlag x) := by
  unfold eventFlag?
  split <;> simp_all

theorem keyed_eventFlag? {x : EventFlag} (h : t.eventFlag? id = some x) :
    x.id = id ∧ t.get? x.id = some (.eventFlag x) :=
  get?_id (eventFlag?_eq_some.mp h)

theorem mutex?_eq_some {x : Mutex} : t.mutex? id = some x ↔ t.get? id = some (.mutex x) := by
  unfold mutex?
  split <;> simp_all

theorem keyed_mutex? {x : Mutex} (h : t.mutex? id = some x) :
    x.id = id ∧ t.get? x.id = some (.mutex x) :=
  get?_id (mutex?_eq_some.mp h)

theorem messagePipe?_eq_some {x : MessagePipe} :
    t.messagePipe? id = some x ↔ t.get? id = some (.messagePipe x) := by
  unfold messagePipe?
  split <;> simp_all

theorem keyed_messagePipe? {x : MessagePipe} (h : t.messagePipe? id = some x) :
    x.id = id ∧ t.get? x.id = some (.messagePipe x) :=
  get?_id (messagePipe?_eq_some.mp h)

theorem partitionMemory?_eq_some {x : PartitionMemory} :
    t.partitionMemory? id = some x ↔ t.get? id = some (.partitionMemory x) := by
  unfold partitionMemory?
  split <;> simp_all

theorem find?_eq_some {kind : ObjectKind} : t.find? kind id = some o ↔ t.get? id = some o ∧ o.kind = kind := by
  simp [find?, Option.filter_eq_some_iff]

theorem thread?_put (o : Object) (id : ObjectId) :
    (t.put o).thread? id = if o.id = id then o.thread? else t.thread? id := by
  rw [thread?_eq_bind, get?_put]
  split
  · rfl
  · exact thread?_eq_bind.symm

theorem thread?_erase (id' : ObjectId) :
    (t.erase id).thread? id' = if id = id' then none else t.thread? id' := by
  rw [thread?_eq_bind, get?_erase]
  split
  · rfl
  · exact thread?_eq_bind.symm

/-- Storing an object that stands in the table already changes nothing. -/
theorem put_eq_self (h : t.get? o.id = some o) : t.put o = t := by
  refine ext_get? (fun id => ?_) rfl
  rw [get?_put]
  split
  · next hid => rw [← hid, h]
  · rfl

/-- Versions of two different objects may be stored in either order. -/
theorem put_comm {o o' : Object} (h : o.id ≠ o'.id) : (t.put o).put o' = (t.put o').put o := by
  refine ext_get? (fun id => ?_) rfl
  simp only [get?_put]
  by_cases h₁ : o.id = id
  · have h₂ : o'.id ≠ id := fun h₂ => h (h₁.trans h₂.symm)
    rw [if_neg h₂, if_pos h₁, if_pos h₁]
  · rw [if_neg h₁, if_neg h₁]

end ObjectTable
end GuestKernel
