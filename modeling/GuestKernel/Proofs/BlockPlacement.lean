/-
# Where a block is placed

A search looks at one candidate in each gap: the start of the gap rounded up, or the last address from which the block
still fits rounded down. This is enough. In one gap the rounded address is the best of all that fit, and the gaps are
visited in order, so the first hit is the best of the whole partition (`findSome?_best`). Alignments need not be powers of
two, and gaps need not start at a multiple of anything.

| placement | address |
| --- | --- |
| `low` | the least that fits |
| `high` | the greatest that fits |
| `fixed a` | `a`, if it fits |

What fits is said without gaps: the range lies in the partition and meets no block (`Partition.Vacant`). A request is
refused for want of memory only if nothing fits (`placement_run`).

Source: specification, 4.1.
-/

import GuestKernel.Proofs.PartitionSpace
import Mathlib.Order.Bounds.Basic

namespace GuestKernel

/-- The address is a multiple of the alignment; alignments 0 and 1 ask for nothing. -/
def Aligned (alignment address : Nat) : Prop := alignment ≤ 1 ∨ alignment ∣ address

/-! ### Rounding -/

section Rounding

variable {alignment value address : Nat}

theorem aligned_alignUp (value alignment : Nat) : Aligned alignment (alignUp value alignment) := by
  unfold alignUp
  split
  · next h => exact Or.inl h
  · exact Or.inr (Nat.dvd_mul_left ..)

theorem aligned_alignDown (value alignment : Nat) : Aligned alignment (alignDown value alignment) := by
  unfold alignDown
  split
  · next h => exact Or.inl h
  · exact Or.inr (Nat.dvd_mul_left ..)

/-- Nothing aligned lies between a value and the value rounded up. -/
theorem alignUp_le (h : Aligned alignment address) (hle : value ≤ address) : alignUp value alignment ≤ address := by
  unfold alignUp
  split
  · exact hle
  · next hal =>
    obtain ⟨m, rfl⟩ := h.resolve_left hal
    have hpos : 0 < alignment := by omega
    have hdiv : (value + alignment - 1) / alignment ≤ m := by
      rw [← Nat.lt_add_one_iff, Nat.div_lt_iff_lt_mul hpos, Nat.succ_mul, Nat.mul_comm m]
      omega
    rw [Nat.mul_comm alignment]
    exact Nat.mul_le_mul_right _ hdiv

/-- Nothing aligned lies between a value rounded down and the value. -/
theorem le_alignDown (h : Aligned alignment address) (hle : address ≤ value) : address ≤ alignDown value alignment := by
  unfold alignDown
  split
  · exact hle
  · next hal =>
    obtain ⟨m, rfl⟩ := h.resolve_left hal
    have hpos : 0 < alignment := by omega
    rw [Nat.mul_comm alignment]
    refine Nat.mul_le_mul_right _ ((Nat.le_div_iff_mul_le hpos).mpr ?_)
    rwa [Nat.mul_comm m]

end Rounding

/-! ### One gap -/

namespace Gap

variable {g : Gap} {alignment size address : Nat}

/-- An aligned address from which the bytes lie in the gap. -/
def Takes (g : Gap) (alignment size address : Nat) : Prop := Aligned alignment address ∧ g.fits address size = true

/-- **The candidate from below is the least address of the gap that fits.** -/
theorem lowest?_eq_some (h : g.lowest? alignment size = some address) :
    g.Takes alignment size address ∧ ∀ a, g.Takes alignment size a → address ≤ a := by
  have hfits := fits_of_lowest? h
  simp only [lowest?] at h
  split at h
  · cases h
    exact ⟨⟨aligned_alignUp .., hfits⟩, fun a ha => alignUp_le ha.1 (fits_iff.mp ha.2).1⟩
  · cases h

/-- A gap without a lowest address for a block has none for it at all. -/
theorem lowest?_eq_none (h : g.lowest? alignment size = none) (a : Nat) : ¬ g.Takes alignment size a := by
  rintro ⟨haligned, hfits⟩
  obtain ⟨hstart, hstop⟩ := fits_iff.mp hfits
  have hup := alignUp_le haligned hstart
  simp only [lowest?] at h
  split at h
  · cases h
  · omega

/-- **The candidate from above is the greatest address of the gap that fits.** -/
theorem highest?_eq_some (h : g.highest? alignment size = some address) :
    g.Takes alignment size address ∧ ∀ a, g.Takes alignment size a → a ≤ address := by
  have hfits := fits_of_highest? h
  simp only [highest?] at h
  split at h
  · split at h
    · cases h
      refine ⟨⟨aligned_alignDown .., hfits⟩, fun a ha => le_alignDown ha.1 ?_⟩
      have hstop := (fits_iff.mp ha.2).2
      omega
    · cases h
  · cases h

/-- A gap without a highest address for a block has none for it at all. -/
theorem highest?_eq_none (h : g.highest? alignment size = none) (a : Nat) : ¬ g.Takes alignment size a := by
  rintro ⟨haligned, hfits⟩
  obtain ⟨hstart, hstop⟩ := fits_iff.mp hfits
  have hdown := le_alignDown haligned (show a ≤ g.stop - size by omega)
  simp only [highest?] at h
  split at h
  · split at h
    · cases h
    · omega
  · omega

end Gap

/-! ### All gaps -/

/-- **The first hit is the best of all**, if each part gives its best and no later part has a better one. -/
theorem findSome?_best {α : Type} (better : Nat → Nat → Prop) {f : α → Option Nat} {takes : α → Nat → Prop}
    (hsome : ∀ x a, f x = some a → takes x a ∧ ∀ a', takes x a' → better a a')
    (hnone : ∀ x, f x = none → ∀ a, ¬ takes x a) {parts : List α}
    (horder : parts.Pairwise fun x y => ∀ a a', takes x a → takes y a' → better a a') {a : Nat}
    (h : parts.findSome? f = some a) :
    (∃ x ∈ parts, takes x a) ∧ ∀ a', (∃ x ∈ parts, takes x a') → better a a' := by
  obtain ⟨front, x, back, rfl, hx, hfront⟩ := List.findSome?_eq_some_iff.mp h
  obtain ⟨htakes, hbest⟩ := hsome x a hx
  refine ⟨⟨x, by simp, htakes⟩, ?_⟩
  rintro a' ⟨y, hy, hy'⟩
  rcases List.mem_append.mp hy with hmem | hmem
  · exact absurd hy' (hnone y (hfront y hmem) a')
  · rcases List.mem_cons.mp hmem with rfl | hmem
    · exact hbest a' hy'
    · exact (List.pairwise_cons.mp (List.pairwise_append.mp horder).2.1).1 y hmem a a' htakes hy'

namespace Partition

variable {p p' : Partition} {b : Block} {alignment size address : Nat} {placement : Placement}

/-- The `size` bytes from an address on lie in the partition and meet no block. -/
def Vacant (p : Partition) (size address : Nat) : Prop :=
  p.base.toNat ≤ address ∧ address + size ≤ p.stop ∧
    ∀ b ∈ p.blocks, address + size ≤ b.address.toNat ∨ b.stop ≤ address

/-- The aligned addresses from which `size` bytes are vacant. -/
def offers (p : Partition) (alignment size : Nat) : Set Nat :=
  {address | Aligned alignment address ∧ p.Vacant size address}

/-- The addresses that a request may get. -/
def candidates (p : Partition) (placement : Placement) (alignment size : Nat) : Set Nat :=
  match placement with
  | .low => p.offers alignment size
  | .high => p.offers alignment size
  | .fixed a => {address | address = a.toNat ∧ p.Vacant size address}

/-- The address that a request is to get. -/
def Chooses (p : Partition) (placement : Placement) (alignment size address : Nat) : Prop :=
  match placement with
  | .low => IsLeast (p.candidates .low alignment size) address
  | .high => IsGreatest (p.candidates .high alignment size) address
  | .fixed a => address ∈ p.candidates (.fixed a) alignment size

/-- **A vacant range lies in one gap.** -/
theorem Sound.vacant_iff (h : p.Sound) (hpos : 0 < size) :
    p.Vacant size address ↔ ∃ g ∈ p.gaps, g.fits address size = true := by
  constructor
  · rintro ⟨hbase, hstop, hmeets⟩
    have hfree : ∀ a, address ≤ a → a < address + size → p.IsFree a := by
      refine fun a hfrom hto => ⟨by omega, by omega, fun b hb => ?_⟩
      rcases hmeets b hb with hle | hle
      · exact Or.inl (by omega)
      · exact Or.inr (by omega)
    obtain ⟨g, hg, hstart, hend⟩ := h.laid.exists_gap (hfree address (Nat.le_refl _) (by omega))
    exact ⟨g, hg, Gap.fits_iff.mpr ⟨hstart, (h.laid.maximal hg).2.le_stop hfree hend⟩⟩
  · rintro ⟨g, hg, hfits⟩
    obtain ⟨hfrom, hto⟩ := Gap.fits_iff.mp hfits
    obtain ⟨hstart, hstop, hmeets⟩ := mem_gapsFrom h.below
      (fun c hc => ⟨(h.inside c hc).1, (h.inside c hc).2.2⟩) h.ascending hg
    refine ⟨by omega, by omega, fun b hb => ?_⟩
    rcases hmeets b hb with hle | hle
    · exact Or.inr (by omega)
    · exact Or.inl (by omega)

/-- Offers are the addresses that the gaps have for a block. -/
theorem Sound.mem_offers_iff (h : p.Sound) (hpos : 0 < size) :
    address ∈ p.offers alignment size ↔ ∃ g ∈ p.gaps, g.Takes alignment size address := by
  show _ ∧ _ ↔ _
  rw [h.vacant_iff hpos]
  exact ⟨fun ⟨hal, g, hg, hfits⟩ => ⟨g, hg, hal, hfits⟩, fun ⟨g, hg, hal, hfits⟩ => ⟨hal, g, hg, hfits⟩⟩

/-- Addresses of a gap lie below those of the next ones. -/
theorem Sound.pairwise_takes (h : p.Sound) (alignment size : Nat) : p.gaps.Pairwise fun g g' =>
    ∀ a a', g.Takes alignment size a → g'.Takes alignment size a' → a ≤ a' := by
  refine h.laid.pairwise_gapsFrom.imp fun hlt a a' ha ha' => ?_
  have hstop := (Gap.fits_iff.mp ha.2).2
  have hstart := (Gap.fits_iff.mp ha'.2).1
  omega

/-- **What the search finds is the address to be had.** -/
theorem Sound.chooses_of_place? (h : p.Sound) (hpos : 0 < size)
    (hp : p.place? placement alignment size = some address) : p.Chooses placement alignment size address := by
  cases placement with
  | low =>
    obtain ⟨hmem, hleast⟩ := findSome?_best (· ≤ ·) (fun _ _ => Gap.lowest?_eq_some)
      (fun _ => Gap.lowest?_eq_none) (h.pairwise_takes alignment size) hp
    exact ⟨(h.mem_offers_iff hpos).mpr hmem, fun a ha => hleast a ((h.mem_offers_iff hpos).mp ha)⟩
  | high =>
    -- The gaps are visited from the last one on, so the order turns round with them.
    have horder : p.gaps.reverse.Pairwise fun g g' =>
        ∀ a a', g.Takes alignment size a → g'.Takes alignment size a' → a ≥ a' :=
      List.pairwise_reverse.mpr ((h.pairwise_takes alignment size).imp fun hle a a' ha ha' => hle a' a ha' ha)
    obtain ⟨hmem, hgreatest⟩ := findSome?_best (· ≥ ·) (fun _ _ => Gap.highest?_eq_some)
      (fun _ => Gap.highest?_eq_none) horder hp
    simp only [List.mem_reverse] at hmem hgreatest
    exact ⟨(h.mem_offers_iff hpos).mpr hmem, fun a ha => hgreatest a ((h.mem_offers_iff hpos).mp ha)⟩
  | fixed a =>
    simp only [place?] at hp
    split at hp
    · next hany =>
      cases hp
      exact ⟨rfl, (h.vacant_iff hpos).mpr (List.any_eq_true.mp hany)⟩
    · cases hp

/-- **A search that finds nothing has passed over nothing.** -/
theorem Sound.candidates_eq_empty (h : p.Sound) (hpos : 0 < size)
    (hp : p.place? placement alignment size = none) : p.candidates placement alignment size = ∅ := by
  refine Set.eq_empty_iff_forall_notMem.mpr fun a ha => ?_
  cases placement with
  | low =>
    obtain ⟨g, hg, htakes⟩ := (h.mem_offers_iff hpos).mp ha
    exact Gap.lowest?_eq_none (List.findSome?_eq_none_iff.mp hp g hg) a htakes
  | high =>
    obtain ⟨g, hg, htakes⟩ := (h.mem_offers_iff hpos).mp ha
    exact Gap.highest?_eq_none (List.findSome?_eq_none_iff.mp hp g (List.mem_reverse.mpr hg)) a htakes
  | fixed x =>
    obtain ⟨rfl, hvacant⟩ := ha
    simp only [place?] at hp
    rw [if_pos (List.any_eq_true.mpr ((h.vacant_iff hpos).mp hvacant))] at hp
    cases hp

theorem Chooses.mem (h : p.Chooses placement alignment size address) :
    address ∈ p.candidates placement alignment size := by
  cases placement with
  | low => exact h.1
  | high => exact h.1
  | fixed a => exact h

/-- There is one address to be had at most. -/
theorem Chooses.unique {address' : Nat} (h : p.Chooses placement alignment size address)
    (h' : p.Chooses placement alignment size address') : address = address' := by
  cases placement with
  | low => exact IsLeast.unique h h'
  | high => exact IsGreatest.unique h h'
  | fixed a => exact h.1.trans h'.1.symm

/-- **The scan finds the address that the placement asks for.** -/
theorem Sound.place?_eq_some_iff (h : p.Sound) (hpos : 0 < size) :
    p.place? placement alignment size = some address ↔ p.Chooses placement alignment size address := by
  refine ⟨h.chooses_of_place? hpos, fun hchooses => ?_⟩
  cases hp : p.place? placement alignment size with
  | none =>
    have hmem := hchooses.mem
    rw [h.candidates_eq_empty hpos hp] at hmem
    exact absurd hmem (Set.notMem_empty _)
  | some a => rw [(h.chooses_of_place? hpos hp).unique hchooses]

/-! ### Requests -/

variable {name : String} {placement : Placement} {alignment size : UInt32}

theorem allocate_of_some (name : String) (hsize : 0 < size)
    (h : p.place? placement alignment.toNat size.toNat = some address) :
    ∃ p', p.allocate name placement alignment size = .ok (⟨name, UInt32.ofNat address, size⟩, p') := by
  unfold Partition.allocate
  rw [if_neg (UInt32.pos_iff_ne_zero.mp hsize), h]
  exact ⟨_, rfl⟩

theorem allocate_of_none (hsize : 0 < size) (h : p.place? placement alignment.toNat size.toNat = none) :
    p.allocate name placement alignment size = .error .outOfMemory := by
  unfold Partition.allocate
  rw [if_neg (UInt32.pos_iff_ne_zero.mp hsize), h]

/-- **A request gets the address to be had**, and its block has the name and size that were asked for. -/
theorem Sound.allocate_iff (h : p.Sound) (hsize : 0 < size) :
    (∃ p', p.allocate name placement alignment size = .ok (b, p')) ↔
      b.name = name ∧ b.size = size ∧ p.Chooses placement alignment.toNat size.toNat b.address.toNat := by
  have hpos : 0 < size.toNat := UInt32.lt_iff_toNat_lt.mp hsize
  rw [← h.place?_eq_some_iff hpos]
  constructor
  · rintro ⟨p', ha⟩
    obtain ⟨-, address, hp, rfl, -⟩ := exists_of_allocate ha
    -- The address lies in the partition, so a word holds it.
    have hto := ((h.vacant_iff hpos).mpr (fits_of_place? hp)).2.1
    have hbelow := h.below
    refine ⟨rfl, rfl, ?_⟩
    rw [hp, UInt32.toNat_ofNat', Nat.mod_eq_of_lt (by omega)]
  · rintro ⟨rfl, rfl, haddress⟩
    have hsome := allocate_of_some b.name hsize haddress
    rwa [UInt32.ofNat_toNat] at hsome

/-- **A request is refused for want of memory exactly if there is no address for it.** -/
theorem Sound.outOfMemory_iff (h : p.Sound) (hsize : 0 < size) :
    p.allocate name placement alignment size = .error .outOfMemory ↔
      p.candidates placement alignment.toNat size.toNat = ∅ := by
  have hpos : 0 < size.toNat := UInt32.lt_iff_toNat_lt.mp hsize
  cases hp : p.place? placement alignment.toNat size.toNat with
  | none => exact iff_of_true (allocate_of_none hsize hp) (h.candidates_eq_empty hpos hp)
  | some address =>
    obtain ⟨p', ha⟩ := allocate_of_some name hsize hp
    refine iff_of_false (fun he => by cases ha.symm.trans he) fun hempty => ?_
    have hmem := (h.chooses_of_place? hpos hp).mem
    rw [hempty] at hmem
    exact absurd hmem (Set.notMem_empty _)

/-- **Requests get the best address there is, if there is one.** After any requests to a new partition that lies below
`2 ^ 32`, for any alignment and any number of bytes but 0:

* a request from below gets the least of the aligned addresses from which the bytes lie in the partition and meet no
  block, and one from above the greatest;
* a request for an address gets it exactly if the bytes from there on lie in the partition and meet no block;
* a request is refused for want of memory exactly if there is no such address. -/
theorem placement_run (id : PartitionId) (name : String) (base size : UInt32)
    (hbelow : base.toNat + size.toNat < 2 ^ 32) (requests : List PartitionRequest) (block : String)
    (alignment n : UInt32) (hn : 0 < n) :
    let p := Partition.run ⟨id, name, base, size, []⟩ requests
    (∀ b, (∃ p', p.allocate block .low alignment n = .ok (b, p')) ↔
      b.name = block ∧ b.size = n ∧ IsLeast (p.offers alignment.toNat n.toNat) b.address.toNat) ∧
    (∀ b, (∃ p', p.allocate block .high alignment n = .ok (b, p')) ↔
      b.name = block ∧ b.size = n ∧ IsGreatest (p.offers alignment.toNat n.toNat) b.address.toNat) ∧
    (∀ a b, (∃ p', p.allocate block (.fixed a) alignment n = .ok (b, p')) ↔
      b = ⟨block, a, n⟩ ∧ p.Vacant n.toNat a.toNat) ∧
    (∀ placement, placement = .low ∨ placement = .high →
      (p.allocate block placement alignment n = .error .outOfMemory ↔ p.offers alignment.toNat n.toNat = ∅)) ∧
    ∀ a, p.allocate block (.fixed a) alignment n = .error .outOfMemory ↔ ¬ p.Vacant n.toNat a.toNat := by
  intro p
  have hnew : (⟨id, name, base, size, []⟩ : Partition).Sound := ⟨hbelow, nofun, .nil⟩
  have hsound : p.Sound := hnew.run requests
  refine ⟨fun b => hsound.allocate_iff hn, fun b => hsound.allocate_iff hn, fun a b => ?_, ?_, fun a => ?_⟩
  · rw [hsound.allocate_iff hn]
    constructor
    · rintro ⟨rfl, rfl, haddress, hvacant⟩
      obtain rfl := UInt32.toNat_inj.mp haddress
      exact ⟨rfl, hvacant⟩
    · rintro ⟨rfl, hvacant⟩
      exact ⟨rfl, rfl, rfl, hvacant⟩
  · rintro placement (rfl | rfl) <;> exact hsound.outOfMemory_iff hn
  · rw [hsound.outOfMemory_iff hn, Set.eq_empty_iff_forall_notMem]
    exact ⟨fun hnone hvacant => hnone a.toNat ⟨rfl, hvacant⟩, fun hnot x hx => hnot (hx.1 ▸ hx.2)⟩

/-- In a partition in three pieces an alignment of 48 takes the first gap out of play from below; from above the last
one is too short, and the next is cut by the rounding. -/
theorem placement_fragmented :
    let p := Partition.run ⟨2, "user", 0x1000, 0x1000, []⟩ fragmented
    p.gaps = [⟨0x1000, 0x1100⟩, ⟨0x1280, 0x1e00⟩, ⟨0x1ff0, 0x2000⟩] ∧
      IsLeast (p.offers 0x30 0x100) 0x1290 ∧ IsGreatest (p.offers 0x30 0x100) 0x1ce0 ∧
      ¬ p.Vacant 0x100 0x1001 ∧ p.offers 0x30 0xb71 = ∅ := by
  obtain ⟨hlow, hhigh, -, -, hfixed⟩ :=
    placement_run 2 "user" 0x1000 0x1000 (by decide) fragmented "next" 0x30 0x100 (by decide)
  obtain ⟨-, -, -, hnone, -⟩ :=
    placement_run 2 "user" 0x1000 0x1000 (by decide) fragmented "next" 0x30 0xb71 (by decide)
  refine ⟨by decide, ?_, ?_, ?_, ?_⟩
  · exact ((hlow ⟨"next", 0x1290, 0x100⟩).mp ⟨_, rfl⟩).2.2
  · exact ((hhigh ⟨"next", 0x1ce0, 0x100⟩).mp ⟨_, rfl⟩).2.2
  · exact (hfixed 0x1001).mp (by decide)
  · exact (hnone .low (Or.inl rfl)).mp (by decide)

end Partition
end GuestKernel
