/-
# Accounts

An account is a number that an object has as long as it is registered, together with what each operation adds to it and
takes from it. It is kept by an operation (`Account.Kept`) if it is opened with nothing on it when the object is made,
does not move while there is no object, and else moves by as much as is added and taken.

Over a run that keeps an account, what is left of it at the end is what has been added less what has been taken, since an
id that was given back is not handed out again (`Account.balance`).

Source: specification, 4.6.
-/

import GuestKernel.Proofs.OperationMoves

namespace GuestKernel

namespace Kernel

/-- Two amounts may be summed together or apart. -/
theorem sumAlong_add (amount amount' : Kernel → Operation → Int) (k : Kernel) (operations : List Operation) :
    k.sumAlong (fun k o => amount k o + amount' k o) operations =
      k.sumAlong amount operations + k.sumAlong amount' operations := by
  induction operations generalizing k with
  | nil => rfl
  | cons o rest ih =>
    unfold sumAlong
    rw [ih]
    omega

/-- A sum along a run is that of its beginning and that of the rest, from where the beginning leads. -/
theorem sumAlong_append (amount : Kernel → Operation → Int) (k : Kernel) (first rest : List Operation) :
    k.sumAlong amount (first ++ rest) = k.sumAlong amount first + (k.run first).sumAlong amount rest := by
  induction first generalizing k with
  | nil => exact (Int.zero_add _).symm
  | cons o first ih =>
    rw [List.cons_append, sumAlong, sumAlong, ih, run_cons]
    omega

theorem sumAlong_nonneg {amount : Kernel → Operation → Int} (h : ∀ k o, 0 ≤ amount k o) (k : Kernel)
    (operations : List Operation) : 0 ≤ k.sumAlong amount operations := by
  induction operations generalizing k with
  | nil => exact Int.le_refl 0
  | cons o rest ih => exact Int.add_nonneg (h k o) (ih _)

end Kernel

/-- A number that goes with an object, and what operations add to it and take from it. -/
structure Account where
  held : Kernel → Option Int
  added : Kernel → Operation → Int
  taken : Kernel → Operation → Int

namespace Account

variable {a : Account} {x : ObjectId} {k : Kernel} {o : Operation} {operations : List Operation} {v v' : Int}

/-- The operation keeps the account of the object of an id. -/
structure Kept (a : Account) (x : ObjectId) (k : Kernel) (o : Operation) : Prop where
  opens : ∀ v, a.held k = none → a.held (k.after o) = some v → x = k.nextId ∧ v = 0
  rests : a.held k = none → a.added k o = 0 ∧ a.taken k o = 0
  moves : ∀ v v', a.held k = some v → a.held (k.after o) = some v' → v' + a.taken k o = v + a.added k o
  /-- There is none under an id that has not been handed out. -/
  unborn : k.nextId.toNat ≤ x.toNat → a.held k = none

/-- Ids do not wrap around as long as those handed out fit. -/
theorem nextId_le_after (hn : k.started.Nodup) (hbound : k.nextId.toNat + k.handedOut (o :: operations) < 2 ^ 32) :
    k.nextId.toNat ≤ (k.after o).nextId.toNat ∧
      (k.after o).nextId.toNat + (k.after o).handedOut operations < 2 ^ 32 := by
  have hsplit : k.handedOut (o :: operations) = k.handedOut [o] + (k.after o).handedOut operations :=
    Kernel.handedOut_append k [o] operations
  have hone : (k.after o).nextId.toNat = k.nextId.toNat + k.handedOut [o] :=
    Kernel.toNat_nextId_run [o] hn (by omega)
  omega

/-- What is opened during a run had not been handed out before. -/
theorem nextId_le (h : k.Along (a.Kept x) operations) (hn : k.started.Nodup)
    (hbound : k.nextId.toNat + k.handedOut operations < 2 ^ 32) (hnone : a.held k = none)
    (hsome : a.held (k.run operations) = some v) : k.nextId.toNat ≤ x.toNat := by
  induction operations generalizing k with
  | nil => cases hnone.symm.trans hsome
  | cons o rest ih =>
    obtain ⟨hle, hbound'⟩ := nextId_le_after hn hbound
    cases hnext : a.held (k.after o) with
    | none => exact Nat.le_trans hle (ih h.2 (Kernel.nodup_started_after o hn) hbound' hnext hsome)
    | some w => exact Nat.le_of_eq (congrArg UInt32.toNat (h.1.opens w hnone hnext).1.symm)

/-- **What is left on an account** and what has been taken from it is what was on it and what has been added. -/
theorem balance (h : k.Along (a.Kept x) operations) (hn : k.started.Nodup)
    (hbound : k.nextId.toNat + k.handedOut operations < 2 ^ 32) (hv : a.held (k.run operations) = some v) :
    v + k.sumAlong a.taken operations = (a.held k).getD 0 + k.sumAlong a.added operations := by
  induction operations generalizing k with
  | nil =>
    rw [show a.held k = some v from hv]
    rfl
  | cons o rest ih =>
    obtain ⟨hle, hbound'⟩ := nextId_le_after hn hbound
    have hn' := Kernel.nodup_started_after o hn
    have hrest := ih h.2 hn' hbound' hv
    unfold Kernel.sumAlong
    cases hnext : a.held (k.after o) with
    | some w =>
      rw [hnext, Option.getD_some] at hrest
      cases hk : a.held k with
      | some u =>
        have hmoves := h.1.moves u w hk hnext
        rw [Option.getD_some]
        omega
      | none =>
        obtain ⟨hadded, htaken⟩ := h.1.rests hk
        obtain ⟨-, hzero⟩ := h.1.opens w hk hnext
        rw [Option.getD_none]
        omega
    | none =>
      -- The object is made later, so it was not there before either.
      have hk := h.1.unborn (Nat.le_trans hle (nextId_le h.2 hn' hbound' hnext hv))
      obtain ⟨hadded, htaken⟩ := h.1.rests hk
      rw [hnext, Option.getD_none] at hrest
      rw [hk, Option.getD_none]
      omega

end Account
end GuestKernel
