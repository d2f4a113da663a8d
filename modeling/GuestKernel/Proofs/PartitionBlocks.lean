/-
# The blocks of a partition

The blocks of a partition ascend, are not empty, do not overlap and lie inside it (`Partition.Sound`). Free space is not
stored, so that it is free has to be read off the blocks: a gap meets no block (`mem_gapsFrom`). An allocation takes its
block out of a gap, so it keeps the partition sound and adds exactly that block (`Sound.allocate`); returning a block
takes exactly that block out (`Sound.free`), and returning the block that was just allocated gives the same partition
back.

Source: specification, 3 and 4.1.
-/

import GuestKernel.Partition
import Mathlib.Algebra.Group.Nat.Defs
import Mathlib.Data.List.Pairwise
import Mathlib.Tactic.Common

namespace GuestKernel

/-- The first address past the block. -/
def Block.stop (b : Block) : Nat := b.address.toNat + b.size.toNat

theorem Block.toNat_upperBound {b : Block} (h : b.stop < 2 ^ 32) : b.upperBound.toNat = b.stop := by
  unfold upperBound
  rw [UInt32.toNat_add]
  exact Nat.mod_eq_of_lt h

/-- The blocks share no address. -/
def Block.Apart (b c : Block) : Prop := b.stop ≤ c.address.toNat ∨ c.stop ≤ b.address.toNat

instance : Std.Symm Block.Apart := ⟨fun _ _ => Or.symm⟩

/-- Blocks that are not empty and share no address do not start at the same one. -/
theorem Block.Apart.address_ne {b c : Block} (h : b.Apart c) (hb : 0 < b.size.toNat) (hc : 0 < c.size.toNat) :
    c.address ≠ b.address := by
  intro heq
  unfold Apart stop at h
  rw [heq] at h
  omega

/-! ### Candidate addresses -/

theorem le_alignUp (value alignment : Nat) : value ≤ alignUp value alignment := by
  unfold alignUp
  split
  · exact Nat.le_refl value
  · next h =>
    have hmod := Nat.div_add_mod (value + alignment - 1) alignment
    have hlt := Nat.mod_lt (value + alignment - 1) (show 0 < alignment by omega)
    rw [Nat.mul_comm] at hmod
    omega

theorem alignDown_le (value alignment : Nat) : alignDown value alignment ≤ value := by
  unfold alignDown
  split
  · exact Nat.le_refl value
  · exact Nat.div_mul_le_self value alignment

namespace Gap

variable {g : Gap} {address alignment size : Nat}

theorem fits_iff : g.fits address size = true ↔ g.start ≤ address ∧ address + size ≤ g.stop := by
  simp [fits]

theorem fits_of_lowest? (h : g.lowest? alignment size = some address) : g.fits address size = true := by
  simp only [lowest?] at h
  split at h
  · next hle =>
    cases h
    exact fits_iff.mpr ⟨le_alignUp g.start alignment, hle⟩
  · cases h

theorem fits_of_highest? (h : g.highest? alignment size = some address) : g.fits address size = true := by
  simp only [highest?] at h
  split at h
  · next hsize =>
    split at h
    · next hstart =>
      cases h
      have hdown := alignDown_le (g.stop - size) alignment
      exact fits_iff.mpr ⟨hstart, by omega⟩
    · cases h
  · cases h

end Gap

namespace Partition

variable {p p' : Partition} {b : Block} {placement : Placement} {blocks : List Block} {name : String}
  {alignment size : UInt32}

/-- Every placement takes its address from a gap that fits. -/
theorem fits_of_place? {alignment size address : Nat}
    (h : p.place? placement alignment size = some address) : ∃ g ∈ p.gaps, g.fits address size = true := by
  unfold place? at h
  split at h
  · obtain ⟨g, hg, ha⟩ := List.exists_of_findSome?_eq_some h
    exact ⟨g, hg, Gap.fits_of_lowest? ha⟩
  · obtain ⟨g, hg, ha⟩ := List.exists_of_findSome?_eq_some h
    exact ⟨g, List.mem_reverse.mp hg, Gap.fits_of_highest? ha⟩
  · split at h
    · next hany =>
      cases h
      exact List.any_eq_true.mp hany
    · cases h

/-! ### Gaps -/

/-- The blocks of the partition, which lies below `2 ^ 32`, are not empty, lie inside it, ascend and do not overlap. -/
structure Sound (p : Partition) : Prop where
  below : p.stop < 2 ^ 32
  inside : ∀ b ∈ p.blocks, p.base.toNat ≤ b.address.toNat ∧ 0 < b.size.toNat ∧ b.stop ≤ p.stop
  ascending : p.blocks.Pairwise fun b c => b.stop ≤ c.address.toNat

/-- A gap lies in the range and meets no block. -/
theorem mem_gapsFrom {stop cursor : Nat} {g : Gap} (hstop : stop < 2 ^ 32)
    (hinside : ∀ b ∈ blocks, cursor ≤ b.address.toNat ∧ b.stop ≤ stop)
    (hasc : blocks.Pairwise fun b c => b.stop ≤ c.address.toNat) (hg : g ∈ gapsFrom stop cursor blocks) :
    cursor ≤ g.start ∧ g.stop ≤ stop ∧ ∀ b ∈ blocks, b.stop ≤ g.start ∨ g.stop ≤ b.address.toNat := by
  induction blocks generalizing cursor with
  | nil =>
    unfold gapsFrom at hg
    split at hg
    · rw [List.mem_singleton.mp hg]
      exact ⟨Nat.le_refl _, Nat.le_refl _, nofun⟩
    · cases hg
  | cons b rest ih =>
    obtain ⟨hcursor, hbstop⟩ := hinside b (List.mem_cons_self ..)
    obtain ⟨hnext, hrest⟩ := List.pairwise_cons.mp hasc
    have hstart : b.address.toNat ≤ b.stop := Nat.le_add_right ..
    have hbelow : b.stop < 2 ^ 32 := by omega
    simp only [gapsFrom, Block.toNat_upperBound hbelow] at hg
    have hlater : g ∈ gapsFrom stop b.stop rest → cursor ≤ g.start ∧ g.stop ≤ stop ∧
        ∀ c ∈ b :: rest, c.stop ≤ g.start ∨ g.stop ≤ c.address.toNat := by
      intro hg
      obtain ⟨hfrom, hto, hmeets⟩ := ih (fun c hc => ⟨hnext c hc, (hinside c (List.mem_cons_of_mem b hc)).2⟩) hrest hg
      refine ⟨by omega, hto, fun c hc => ?_⟩
      rcases List.mem_cons.mp hc with rfl | hc
      · exact Or.inl hfrom
      · exact hmeets c hc
    split at hg
    · rcases List.mem_cons.mp hg with rfl | hg
      · refine ⟨Nat.le_refl _, by show b.address.toNat ≤ stop; omega, fun c hc => Or.inr ?_⟩
        rcases List.mem_cons.mp hc with rfl | hc
        · exact Nat.le_refl _
        · have hc' := hnext c hc
          show b.address.toNat ≤ c.address.toNat
          omega
      · exact hlater hg
    · exact hlater hg

/-! ### Allocating -/

/-- Inserting a block keeps all the others. -/
theorem insertBlock_perm (h : ∀ c ∈ blocks, c.address ≠ b.address) : (insertBlock b blocks).Perm (b :: blocks) := by
  induction blocks with
  | nil => exact .refl _
  | cons c rest ih =>
    have hc := h c (List.mem_cons_self ..)
    unfold insertBlock
    split
    · exact .refl _
    · rw [if_neg fun heq => hc heq.symm]
      exact ((ih fun d hd => h d (List.mem_cons_of_mem c hd)).cons c).trans (.swap b c rest)

/-- A block that is apart from the others goes between its neighbours. -/
theorem pairwise_insertBlock (hapart : ∀ c ∈ blocks, b.Apart c) (hb : 0 < b.size.toNat)
    (hblocks : ∀ c ∈ blocks, 0 < c.size.toNat) (hasc : blocks.Pairwise fun b c => b.stop ≤ c.address.toNat) :
    (insertBlock b blocks).Pairwise fun b c => b.stop ≤ c.address.toNat := by
  induction blocks with
  | nil => exact List.pairwise_singleton _ _
  | cons c rest ih =>
    obtain ⟨hnext, hrest⟩ := List.pairwise_cons.mp hasc
    have hmem : c ∈ c :: rest := List.mem_cons_self ..
    have hpos := hblocks c hmem
    have hne := (hapart c hmem).address_ne hb hpos
    have hc := hapart c hmem
    have hcstop : c.stop = c.address.toNat + c.size.toNat := rfl
    have hbstop : b.stop = b.address.toNat + b.size.toNat := rfl
    unfold Block.Apart at hc
    unfold insertBlock
    split
    · next hlt =>
      have hlt' := UInt32.lt_iff_toNat_lt.mp hlt
      refine List.pairwise_cons.mpr ⟨fun d hd => ?_, hasc⟩
      rcases List.mem_cons.mp hd with rfl | hd
      · omega
      · have hd' := hnext d hd
        omega
    · next hge =>
      have hge' : ¬ b.address.toNat < c.address.toNat := fun hlt => hge (UInt32.lt_iff_toNat_lt.mpr hlt)
      rw [if_neg fun heq => hne heq.symm]
      have hapart' : ∀ d ∈ rest, b.Apart d := fun d hd => hapart d (List.mem_cons_of_mem c hd)
      have hblocks' : ∀ d ∈ rest, 0 < d.size.toNat := fun d hd => hblocks d (List.mem_cons_of_mem c hd)
      refine List.pairwise_cons.mpr ⟨fun d hd => ?_, ih hapart' hblocks' hrest⟩
      have hperm := insertBlock_perm fun d hd => (hapart' d hd).address_ne hb (hblocks' d hd)
      rcases List.mem_cons.mp (hperm.mem_iff.mp hd) with rfl | hd
      · omega
      · exact hnext d hd

/-- Taking out a block that has just been put in gives the same list back. -/
theorem eraseP_insertBlock (h : ∀ c ∈ blocks, c.address ≠ b.address) :
    (insertBlock b blocks).eraseP (·.address == b.address) = blocks := by
  induction blocks with
  | nil => simp [insertBlock]
  | cons c rest ih =>
    have hc := h c (List.mem_cons_self ..)
    unfold insertBlock
    split
    · simp
    · rw [if_neg fun heq => hc heq.symm, List.eraseP_cons_of_neg (by simpa using hc),
        ih fun d hd => h d (List.mem_cons_of_mem c hd)]

/-- The block that a sound partition owns is the only one at its address. -/
theorem Sound.eq_of_address (h : p.Sound) {c : Block} (hb : b ∈ p.blocks) (hc : c ∈ p.blocks)
    (heq : c.address = b.address) : c = b := by
  by_contra hne
  have hapart : p.blocks.Pairwise Block.Apart := h.ascending.imp fun hle => Or.inl hle
  have hbc := hapart.forall hb hc fun hbc => hne hbc.symm
  exact hbc.address_ne (h.inside b hb).2.1 (h.inside c hc).2.1 heq

/-- A sound partition owns exactly its blocks. -/
theorem Sound.owns (h : p.Sound) (hb : b ∈ p.blocks) : p.owns b = true := by
  unfold Partition.owns
  split
  · next c hc =>
    have haddress : c.address = b.address := by simpa using List.find?_some hc
    rw [h.eq_of_address hb (List.mem_of_find?_eq_some hc) haddress]
    exact beq_self_eq_true _
  · next hnone =>
    have hno := List.find?_eq_none.mp hnone b hb
    exact absurd (beq_self_eq_true b.address) hno

/-- **Returning a block that is allocated** succeeds and takes out that block alone. -/
theorem Sound.free (h : p.Sound) (hb : b ∈ p.blocks) :
    ∃ p', p.free b = .ok p' ∧ p'.Sound ∧ p.blocks.Perm (b :: p'.blocks) := by
  let p' : Partition := { p with blocks := p.blocks.eraseP (·.address == b.address) }
  have hfree : p.free b = .ok p' := by
    unfold Partition.free
    rw [if_pos (h.owns hb)]
  have hsub : p'.blocks.Sublist p.blocks := List.eraseP_sublist
  refine ⟨p', hfree, ⟨h.below, fun c hc => h.inside c (hsub.subset hc), h.ascending.sublist hsub⟩, ?_⟩
  obtain ⟨c, front, back, -, haddress, heq, herase⟩ :=
    List.exists_of_eraseP (p := (·.address == b.address)) hb (beq_self_eq_true _)
  have hc : c = b := h.eq_of_address hb (by rw [heq]; simp) (by simpa using haddress)
  have hback : p'.blocks = front ++ back := herase
  rw [hback, heq, hc]
  exact List.perm_middle

/-- What an allocation comes from and what it does. -/
theorem exists_of_allocate (h : p.allocate name placement alignment size = .ok (b, p')) :
    0 < size ∧ ∃ address, p.place? placement alignment.toNat size.toNat = some address ∧
      b = ⟨name, UInt32.ofNat address, size⟩ ∧ p' = { p with blocks := insertBlock b p.blocks } := by
  unfold Partition.allocate at h
  split at h
  · cases h
  · next hsize =>
    split at h
    · cases h
    · next address haddress =>
      cases h
      exact ⟨UInt32.pos_iff_ne_zero.mpr hsize, address, haddress, rfl, rfl⟩

/-- **An allocation** takes a block from free space: it adds that block alone, and returning it undoes the allocation. -/
theorem Sound.allocate (h : p.Sound) (ha : p.allocate name placement alignment size = .ok (b, p')) :
    p'.Sound ∧ p'.blocks.Perm (b :: p.blocks) ∧ p'.free b = .ok p := by
  obtain ⟨hsize, address, haddress, hb, rfl⟩ := exists_of_allocate ha
  obtain ⟨g, hg, hfits⟩ := fits_of_place? haddress
  obtain ⟨hfrom, hto⟩ := Gap.fits_iff.mp hfits
  obtain ⟨hstart, hstop, hmeets⟩ := mem_gapsFrom h.below
    (fun c hc => ⟨(h.inside c hc).1, (h.inside c hc).2.2⟩) h.ascending hg
  have hbelow := h.below
  have hpos : 0 < b.size.toNat := hb ▸ UInt32.lt_iff_toNat_lt.mp hsize
  have hcut : b.address.toNat = address := by
    rw [hb, UInt32.toNat_ofNat']
    exact Nat.mod_eq_of_lt (by rw [hb] at hpos; omega)
  have hbstop : b.stop = address + size.toNat := by
    unfold Block.stop
    rw [hcut, hb]
  have hapart : ∀ c ∈ p.blocks, b.Apart c := by
    intro c hc
    unfold Block.Apart
    rw [hcut, hbstop]
    rcases hmeets c hc with hle | hle
    · exact Or.inr (by omega)
    · exact Or.inl (by omega)
  have hblocks : ∀ c ∈ p.blocks, 0 < c.size.toNat := fun c hc => (h.inside c hc).2.1
  have hne : ∀ c ∈ p.blocks, c.address ≠ b.address := fun c hc => (hapart c hc).address_ne hpos (hblocks c hc)
  have hperm := insertBlock_perm hne
  have hsound : ({ p with blocks := insertBlock b p.blocks } : Partition).Sound := by
    refine ⟨h.below, fun c hc => ?_, pairwise_insertBlock hapart hpos hblocks h.ascending⟩
    rcases List.mem_cons.mp (hperm.mem_iff.mp hc) with rfl | hc
    · show p.base.toNat ≤ c.address.toNat ∧ 0 < c.size.toNat ∧ c.stop ≤ p.stop
      rw [hcut, hbstop]
      exact ⟨by omega, hpos, by omega⟩
    · exact h.inside c hc
  refine ⟨hsound, hperm, ?_⟩
  have howns := hsound.owns (hperm.mem_iff.mpr (List.mem_cons_self ..))
  unfold Partition.free
  rw [if_pos howns]
  show Except.ok { p with blocks := (insertBlock b p.blocks).eraseP (·.address == b.address) } = _
  rw [eraseP_insertBlock hne]

end Partition
end GuestKernel
