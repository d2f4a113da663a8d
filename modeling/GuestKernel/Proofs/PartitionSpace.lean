/-
# The free space of a partition

A partition stores its blocks only. One scan over them, with a cursor behind the last block seen, computes the gaps. In
a sound partition the scan is exact: the gaps are the maximal ranges of free addresses (`Sound.mem_gaps_iff`), and what
the blocks use and what the gaps hold add up to the size of the partition (`Sound.sum_gaps`), so neither sum is ever cut
to 32 bits. The largest gap is what a caller can still get when it asks for no alignment (`Sound.allocates_iff`).

Every sequence of requests to a new partition leaves a sound one (`Sound.run`), so all of this holds at any time
(`accounts_run`).

Source: specification, 4.1.
-/

import GuestKernel.Proofs.Ownership
import Mathlib.Algebra.GroupWithZero.Nat

namespace GuestKernel

/-! ### Ranges of free addresses -/

/-- The address lies in `[cursor, stop)` and in none of the blocks. -/
def Unused (stop cursor : Nat) (blocks : List Block) (a : Nat) : Prop :=
  cursor ≤ a ∧ a < stop ∧ ∀ b ∈ blocks, a < b.address.toNat ∨ b.stop ≤ a

/-- The gap is not empty, its addresses are free, and neither the next one nor the last one before it is. -/
structure Gap.Maximal (free : Nat → Prop) (g : Gap) : Prop where
  nonempty : g.start < g.stop
  inner : ∀ a, g.start ≤ a → a < g.stop → free a
  ends : ¬ free g.stop
  begins : ∀ a, a + 1 = g.start → ¬ free a

namespace Gap

variable {free : Nat → Prop} {g h : Gap} {a : Nat} {b : Nat}

/-- All free addresses up to one of the gap, without a hole, are in the gap. -/
theorem Maximal.start_le (hg : g.Maximal free) (hb : ∀ c, b ≤ c → c ≤ a → free c) (ha : g.start ≤ a) : g.start ≤ b := by
  by_contra hlt
  exact hg.begins (g.start - 1) (by omega) (hb _ (by omega) (by omega))

theorem Maximal.le_stop (hg : g.Maximal free) (hb : ∀ c, a ≤ c → c < b → free c) (ha : a < g.stop) : b ≤ g.stop := by
  by_contra hlt
  exact hg.ends (hb _ (by omega) (by omega))

/-- Maximal gaps that share an address are the same. -/
theorem Maximal.eq (hg : g.Maximal free) (hh : h.Maximal free) (hga : g.start ≤ a ∧ a < g.stop)
    (hha : h.start ≤ a ∧ a < h.stop) : g = h := by
  have hstart : g.start = h.start := by
    apply Nat.le_antisymm
    · exact hg.start_le (fun c hc hca => hh.inner c hc (by omega)) hga.1
    · exact hh.start_le (fun c hc hca => hg.inner c hc (by omega)) hha.1
  have hstop : g.stop = h.stop := by
    apply Nat.le_antisymm
    · exact hh.le_stop (fun c hc hcb => hg.inner c (by omega) hcb) hha.2
    · exact hg.le_stop (fun c hc hcb => hh.inner c (by omega) hcb) hga.2
  cases g
  cases h
  simp only at hstart hstop
  rw [hstart, hstop]

end Gap

/-! ### The scan -/

/-- The blocks lie in `[cursor, stop)`, are not empty, ascend and do not overlap. -/
structure Laid (stop cursor : Nat) (blocks : List Block) : Prop where
  below : stop < 2 ^ 32
  room : cursor ≤ stop
  inside : ∀ b ∈ blocks, cursor ≤ b.address.toNat ∧ 0 < b.size.toNat ∧ b.stop ≤ stop
  ascending : blocks.Pairwise fun b c => b.stop ≤ c.address.toNat

section Scan

variable {stop cursor : Nat} {b : Block} {blocks rest : List Block} {g : Gap} {a : Nat}

theorem Laid.tail (h : Laid stop cursor (b :: rest)) : Laid stop b.stop rest := by
  obtain ⟨hnext, hrest⟩ := List.pairwise_cons.mp h.ascending
  refine ⟨h.below, (h.inside b (List.mem_cons_self ..)).2.2, fun c hc => ?_, hrest⟩
  exact ⟨hnext c hc, (h.inside c (List.mem_cons_of_mem b hc)).2⟩

/-- One step of the scan: the range up to the first block, then the scan from behind it. -/
theorem Laid.gapsFrom_cons (h : Laid stop cursor (b :: rest)) : gapsFrom stop cursor (b :: rest) =
    (if cursor < b.address.toNat then [⟨cursor, b.address.toNat⟩] else []) ++ gapsFrom stop b.stop rest := by
  have hstop := h.tail.room
  have hbelow := h.below
  simp only [gapsFrom, Block.toNat_upperBound (show b.stop < 2 ^ 32 by omega)]
  split <;> rfl

/-- What is free is free before the first block, or behind it. -/
theorem Laid.unused_cons (h : Laid stop cursor (b :: rest)) :
    Unused stop cursor (b :: rest) a ↔ (cursor ≤ a ∧ a < b.address.toNat) ∨ Unused stop b.stop rest a := by
  obtain ⟨hcursor, hpos, hbstop⟩ := h.inside b (List.mem_cons_self ..)
  have hlen : b.stop = b.address.toNat + b.size.toNat := rfl
  constructor
  · rintro ⟨hfrom, hto, hmeets⟩
    rcases hmeets b (List.mem_cons_self ..) with hlt | hle
    · exact Or.inl ⟨hfrom, hlt⟩
    · exact Or.inr ⟨hle, hto, fun c hc => hmeets c (List.mem_cons_of_mem b hc)⟩
  · rintro (⟨hfrom, hlt⟩ | ⟨hfrom, hto, hmeets⟩)
    · refine ⟨hfrom, by omega, fun c hc => ?_⟩
      rcases List.mem_cons.mp hc with rfl | hc
      · exact Or.inl hlt
      · have hc' := (h.tail.inside c hc).1
        exact Or.inl (by omega)
    · refine ⟨by omega, hto, fun c hc => ?_⟩
      rcases List.mem_cons.mp hc with rfl | hc
      · exact Or.inr hfrom
      · exact hmeets c hc

/-- Every gap is maximal. -/
theorem Laid.maximal (h : Laid stop cursor blocks) (hg : g ∈ gapsFrom stop cursor blocks) :
    cursor ≤ g.start ∧ g.Maximal (Unused stop cursor blocks) := by
  induction blocks generalizing cursor with
  | nil =>
    simp only [gapsFrom] at hg
    split at hg
    · next hlt =>
      rw [List.mem_singleton.mp hg]
      refine ⟨Nat.le_refl _, hlt, fun a hfrom hto => ⟨hfrom, hto, fun _ hc => absurd hc List.not_mem_nil⟩, fun hf => ?_,
        fun a ha hf => ?_⟩
      · exact absurd hf.2.1 (Nat.lt_irrefl _)
      · have hcursor := hf.1
        simp only at ha
        omega
    · cases hg
  | cons b rest ih =>
    obtain ⟨hcursor, hpos, hbstop⟩ := h.inside b (List.mem_cons_self ..)
    have hlen : b.stop = b.address.toNat + b.size.toNat := rfl
    have hhit : ∀ a, b.address.toNat ≤ a → a < b.stop → ¬ Unused stop cursor (b :: rest) a := by
      intro a hfrom hto hf
      rcases hf.2.2 b (List.mem_cons_self ..) with hlt | hle <;> omega
    rw [h.gapsFrom_cons, List.mem_append] at hg
    rcases hg with hg | hg
    · split at hg
      · next hlt =>
        rw [List.mem_singleton.mp hg]
        refine ⟨Nat.le_refl _, hlt, fun a hfrom hto => h.unused_cons.mpr (Or.inl ⟨hfrom, hto⟩), ?_, fun a ha hf => ?_⟩
        · exact hhit b.address.toNat (Nat.le_refl _) (by omega)
        · have hcursor := hf.1
          simp only at ha
          omega
      · cases hg
    · obtain ⟨hstart, hmax⟩ := ih h.tail hg
      refine ⟨by omega, hmax.nonempty, fun a hfrom hto => h.unused_cons.mpr (Or.inr (hmax.inner a hfrom hto)), ?_, ?_⟩
      · intro hf
        have hlt := hmax.nonempty
        rcases h.unused_cons.mp hf with ⟨-, hbefore⟩ | hf
        · omega
        · exact hmax.ends hf
      · intro a ha hf
        -- The address before the gap is the last one of the block, or behind it.
        by_cases hlast : a < b.stop
        · exact hhit a (by omega) hlast hf
        · rcases h.unused_cons.mp hf with ⟨-, hbefore⟩ | hf
          · omega
          · exact hmax.begins a ha hf

/-- Every free address is in a gap. -/
theorem Laid.exists_gap (h : Laid stop cursor blocks) (ha : Unused stop cursor blocks a) :
    ∃ g ∈ gapsFrom stop cursor blocks, g.start ≤ a ∧ a < g.stop := by
  induction blocks generalizing cursor with
  | nil =>
    refine ⟨⟨cursor, stop⟩, ?_, ha.1, ha.2.1⟩
    simp only [gapsFrom]
    rw [if_pos (Nat.lt_of_le_of_lt ha.1 ha.2.1)]
    exact List.mem_singleton_self _
  | cons b rest ih =>
    rw [h.gapsFrom_cons]
    rcases h.unused_cons.mp ha with ⟨hfrom, hto⟩ | ha
    · refine ⟨⟨cursor, b.address.toNat⟩, List.mem_append_left _ ?_, hfrom, hto⟩
      rw [if_pos (Nat.lt_of_le_of_lt hfrom hto)]
      exact List.mem_singleton_self _
    · obtain ⟨g, hg, hga⟩ := ih h.tail ha
      exact ⟨g, List.mem_append_right _ hg, hga⟩

/-- Between two gaps there is a block. -/
theorem Laid.pairwise_gapsFrom (h : Laid stop cursor blocks) :
    (gapsFrom stop cursor blocks).Pairwise fun g g' => g.stop < g'.start := by
  induction blocks generalizing cursor with
  | nil =>
    simp only [gapsFrom]
    split
    · exact List.pairwise_singleton _ _
    · exact List.Pairwise.nil
  | cons b rest ih =>
    obtain ⟨-, hpos, -⟩ := h.inside b (List.mem_cons_self ..)
    have hlen : b.stop = b.address.toNat + b.size.toNat := rfl
    rw [h.gapsFrom_cons]
    refine List.pairwise_append.mpr ⟨by split <;> simp, ih h.tail, fun g hg g' hg' => ?_⟩
    split at hg
    · have hstart := (h.tail.maximal hg').1
      rw [List.mem_singleton.mp hg]
      simp only
      omega
    · cases hg

/-- The blocks and the gaps fill the range. -/
theorem Laid.sum_gapsFrom (h : Laid stop cursor blocks) :
    (blocks.map (·.size.toNat)).sum + ((gapsFrom stop cursor blocks).map Gap.length).sum = stop - cursor := by
  have hroom := h.room
  induction blocks generalizing cursor with
  | nil =>
    simp only [gapsFrom]
    split
    · simp [Gap.length]
    · simp only [List.map_nil, List.sum_nil]
      omega
  | cons b rest ih =>
    obtain ⟨hcursor, -, hbstop⟩ := h.inside b (List.mem_cons_self ..)
    have hlen : b.stop = b.address.toNat + b.size.toNat := rfl
    have hrest := ih h.tail hbstop
    have hfirst : (((if cursor < b.address.toNat then [⟨cursor, b.address.toNat⟩] else []) : List Gap).map
        Gap.length).sum = b.address.toNat - cursor := by
      split
      · simp [Gap.length]
      · simp only [List.map_nil, List.sum_nil]
        omega
    rw [h.gapsFrom_cons, List.map_cons, List.sum_cons, List.map_append, List.sum_append_nat, hfirst]
    omega

end Scan

/-! ### Sums and maxima of words -/

/-- A sum of words is the sum of the numbers as long as that fits. -/
theorem toNat_foldl_size (blocks : List Block) (sum : UInt32)
    (h : sum.toNat + (blocks.map (·.size.toNat)).sum < 2 ^ 32) :
    (blocks.foldl (fun sum b => sum + b.size) sum).toNat = sum.toNat + (blocks.map (·.size.toNat)).sum := by
  induction blocks generalizing sum with
  | nil => rfl
  | cons b rest ih =>
    rw [List.map_cons, List.sum_cons] at h ⊢
    have hadd : (sum + b.size).toNat = sum.toNat + b.size.toNat := by
      rw [UInt32.toNat_add]
      exact Nat.mod_eq_of_lt (by omega)
    rw [List.foldl_cons, ih _ (by omega), hadd]
    omega

theorem le_max_word {n a b : UInt32} : n ≤ max a b ↔ n ≤ a ∨ n ≤ b := by
  have hmax : max a b = if a ≤ b then b else a := rfl
  rw [hmax]
  split <;> simp only [UInt32.le_iff_toNat_le] at * <;> omega

theorem le_foldl_length {gaps : List Gap} {n best : UInt32} :
    n ≤ gaps.foldl (fun best g => max best (UInt32.ofNat g.length)) best ↔
      n ≤ best ∨ ∃ g ∈ gaps, n ≤ UInt32.ofNat g.length := by
  induction gaps generalizing best with
  | nil => simp
  | cons g rest ih =>
    rw [List.foldl_cons, ih, le_max_word]
    simp only [List.mem_cons, exists_eq_or_imp, or_assoc]

namespace Gap

variable {g : Gap} {alignment size : Nat}

/-- Without an alignment a gap has a lowest place for whatever is not longer than it. -/
theorem isSome_lowest? (h : alignment ≤ 1) (hg : g.start < g.stop) :
    (g.lowest? alignment size).isSome = true ↔ size ≤ g.length := by
  have hup : alignUp g.start alignment = g.start := if_pos h
  simp only [lowest?, hup, Gap.length]
  split
  · simp only [Option.isSome_some, true_iff]
    omega
  · simp only [Option.isSome_none, Bool.false_eq_true, false_iff]
    omega

/-- And a highest one. -/
theorem isSome_highest? (h : alignment ≤ 1) (hg : g.start < g.stop) :
    (g.highest? alignment size).isSome = true ↔ size ≤ g.length := by
  have hdown : alignDown (g.stop - size) alignment = g.stop - size := if_pos h
  simp only [highest?, hdown, Gap.length]
  split
  · split
    · simp only [Option.isSome_some, true_iff]
      omega
    · simp only [Option.isSome_none, Bool.false_eq_true, false_iff]
      omega
  · simp only [Option.isSome_none, Bool.false_eq_true, false_iff]
    omega

end Gap

/-! ### Sound partitions -/

/-- A request to a partition. -/
inductive PartitionRequest where
  | allocate (name : String) (placement : Placement) (alignment size : UInt32)
  | free (b : Block)

namespace Partition

variable {p p' : Partition} {b : Block} {g : Gap} {n : UInt32} {placement : Placement}

/-- The address belongs to the partition and to none of its blocks. -/
def IsFree (p : Partition) (a : Nat) : Prop := Unused p.stop p.base.toNat p.blocks a

/-- The partition after a request, granted or not. -/
def after (p : Partition) : PartitionRequest → Partition
  | .allocate name placement alignment size =>
    match p.allocate name placement alignment size with
    | .ok (_, p) => p
    | .error _ => p
  | .free b =>
    match p.free b with
    | .ok p => p
    | .error _ => p

/-- The partition after one request after another. -/
def run (p : Partition) (requests : List PartitionRequest) : Partition := requests.foldl after p

theorem Sound.laid (h : p.Sound) : Laid p.stop p.base.toNat p.blocks where
  below := h.below
  room := Nat.le_add_right ..
  inside := h.inside
  ascending := h.ascending

/-- **The gaps are the maximal free ranges.** -/
theorem Sound.mem_gaps_iff (h : p.Sound) : g ∈ p.gaps ↔ g.Maximal p.IsFree := by
  refine ⟨fun hg => (h.laid.maximal hg).2, fun hg => ?_⟩
  -- The first address of the range is in some gap, and both are maximal.
  have hstart : p.IsFree g.start := hg.inner g.start (Nat.le_refl _) hg.nonempty
  obtain ⟨g', hmem, hin⟩ := h.laid.exists_gap hstart
  have heq : g = g' := hg.eq (h.laid.maximal hmem).2 ⟨Nat.le_refl _, hg.nonempty⟩ hin
  rw [heq]
  exact hmem

/-- The used bytes add up without wrapping around. -/
theorem Sound.toNat_usedBytes (h : p.Sound) : p.usedBytes.toNat = (p.blocks.map (·.size.toNat)).sum := by
  have hfill := h.laid.sum_gapsFrom
  have hbelow := h.below
  have hzero : (0 : UInt32).toNat = 0 := rfl
  unfold usedBytes
  rw [toNat_foldl_size _ _ (by omega), hzero, Nat.zero_add]

/-- **Blocks and gaps share the partition out**: what is used and what is free add up to its size. -/
theorem Sound.sum_gaps (h : p.Sound) :
    (p.gaps.map Gap.length).sum = p.freeBytes.toNat ∧ p.usedBytes.toNat + p.freeBytes.toNat = p.size.toNat := by
  have hfill : (p.blocks.map (·.size.toNat)).sum + (p.gaps.map Gap.length).sum = p.stop - p.base.toNat :=
    h.laid.sum_gapsFrom
  have hstop : p.stop = p.base.toNat + p.size.toNat := rfl
  rw [← h.toNat_usedBytes] at hfill
  have hle : p.usedBytes ≤ p.size := UInt32.le_iff_toNat_le.mpr (by omega)
  have hfree : p.freeBytes.toNat = p.size.toNat - p.usedBytes.toNat := UInt32.toNat_sub_of_le _ _ hle
  omega

/-- The length of a gap fits into a word. -/
theorem Sound.toNat_length (h : p.Sound) (hg : g ∈ p.gaps) : (UInt32.ofNat g.length).toNat = g.length := by
  obtain ⟨-, hmax⟩ := h.laid.maximal hg
  have hlt := hmax.nonempty
  have hlast := (hmax.inner (g.stop - 1) (by omega) (by omega)).2.1
  have hbelow := h.below
  rw [UInt32.toNat_ofNat']
  exact Nat.mod_eq_of_lt (by unfold Gap.length; omega)

/-- Of the greatest free block it is known that some gap has it. -/
theorem Sound.le_maxFreeBlock (h : p.Sound) (hn : 0 < n.toNat) :
    n ≤ p.maxFreeBlock ↔ ∃ g ∈ p.gaps, n.toNat ≤ g.length := by
  unfold maxFreeBlock
  rw [le_foldl_length]
  have hzero : ¬ n ≤ 0 := fun hle => Nat.not_le_of_lt hn (UInt32.le_iff_toNat_le.mp hle)
  rw [or_iff_right hzero]
  refine exists_congr fun g => and_congr_right fun hg => ?_
  rw [UInt32.le_iff_toNat_le, h.toNat_length hg]

/-- A place without an alignment is a gap that is long enough. -/
theorem Sound.isSome_place? (h : p.Sound) {alignment size : Nat}
    (hplacement : placement = .low ∨ placement = .high) (halign : alignment ≤ 1) :
    (p.place? placement alignment size).isSome = true ↔ ∃ g ∈ p.gaps, size ≤ g.length := by
  have hne : ∀ g ∈ p.gaps, g.start < g.stop := fun g hg => (h.laid.maximal hg).2.nonempty
  rcases hplacement with rfl | rfl <;> unfold place? <;> dsimp only <;> rw [List.isSome_findSome?, List.any_eq_true]
  · exact exists_congr fun g => and_congr_right fun hg => Gap.isSome_lowest? halign (hne g hg)
  · simp only [List.mem_reverse]
    exact exists_congr fun g => and_congr_right fun hg => Gap.isSome_highest? halign (hne g hg)

/-- **The largest gap is what can still be had** by a caller that asks for no alignment. -/
theorem Sound.allocates_iff (h : p.Sound) {name : String} {alignment n : UInt32}
    (hplacement : placement = .low ∨ placement = .high) (halign : alignment ≤ 1) :
    (∃ r, p.allocate name placement alignment n = .ok r) ↔ 0 < n ∧ n ≤ p.maxFreeBlock := by
  have hplace : (p.place? placement alignment.toNat n.toNat).isSome = true ↔ ∃ g ∈ p.gaps, n.toNat ≤ g.length :=
    h.isSome_place? hplacement (UInt32.le_iff_toNat_le.mp halign)
  unfold Partition.allocate
  split
  · next hzero =>
    subst hzero
    simp
  · next hn =>
    have hpos : 0 < n := UInt32.pos_iff_ne_zero.mpr hn
    rw [h.le_maxFreeBlock (UInt32.lt_iff_toNat_lt.mp hpos), ← hplace]
    split
    · next hnone => simp [hnone]
    · next address hsome => simp [hsome, hpos]

theorem eq_of_free (h : p.free b = .ok p') :
    p' = { p with blocks := p.blocks.eraseP (·.address == b.address) } := by
  unfold Partition.free at h
  split at h
  · cases h
    rfl
  · cases h

/-- **A block is taken back exactly if one of its address and size is allocated**, and that one goes. -/
theorem Sound.free_iff (h : p.Sound) : p.free b = .ok p' ↔
    ∃ front c back, p.blocks = front ++ c :: back ∧ c.address = b.address ∧ c.size = b.size ∧
      p' = { p with blocks := front ++ back } := by
  constructor
  · intro hfree
    unfold Partition.free at hfree
    split at hfree
    · next howns =>
      cases hfree
      unfold Partition.owns at howns
      split at howns
      · next c hc =>
        obtain ⟨haddress, front, back, hblocks, hfront⟩ := List.find?_eq_some_iff_append.mp hc
        refine ⟨front, c, back, hblocks, by simpa using haddress, by simpa using howns, ?_⟩
        rw [hblocks, List.eraseP_append_right _ fun d hd => by simpa using hfront d hd,
          List.eraseP_cons_of_pos (p := fun d : Block => d.address == b.address) haddress]
      · cases howns
    · cases hfree
  · rintro ⟨front, c, back, hblocks, haddress, hsize, rfl⟩
    have hc : c ∈ p.blocks := by
      rw [hblocks]
      simp
    have howns : p.owns b = true := by
      have hself := h.owns hc
      unfold Partition.owns at hself ⊢
      rwa [haddress, hsize] at hself
    -- A block before `c` ends where `c` starts at the latest, so it does not start there.
    have hfront : ∀ d ∈ front, ¬ (d.address == b.address) = true := by
      intro d hd heq
      have hd' : d ∈ p.blocks := by
        rw [hblocks]
        exact List.mem_append_left _ hd
      have hdc : d = c := h.eq_of_address hc hd' (haddress ▸ by simpa using heq)
      have hasc := h.ascending
      rw [hblocks] at hasc
      have hle := (List.pairwise_append.mp hasc).2.2 d hd c (List.mem_cons_self ..)
      have hpos := (h.inside c hc).2.1
      rw [hdc] at hle
      unfold Block.stop at hle
      omega
    unfold Partition.free
    rw [if_pos howns, hblocks, List.eraseP_append_right _ hfront,
      List.eraseP_cons_of_pos (by simpa using haddress)]

/-- Taking a block out leaves the rest as it was. -/
theorem Sound.of_free (h : p.Sound) (hfree : p.free b = .ok p') : p'.Sound := by
  obtain ⟨front, c, back, hblocks, -, -, rfl⟩ := h.free_iff.mp hfree
  have hsub : (front ++ back).Sublist p.blocks := by
    rw [hblocks]
    exact (List.Sublist.refl front).append (List.sublist_cons_self c back)
  exact ⟨h.below, fun d hd => h.inside d (hsub.subset hd), h.ascending.sublist hsub⟩

/-! ### Every sequence of requests -/

/-- A request that is refused changes nothing. -/
theorem after_cases (p : Partition) (r : PartitionRequest) : p.after r = p ∨
    (∃ name placement alignment size b, p.allocate name placement alignment size = .ok (b, p.after r)) ∨
    ∃ b, p.free b = .ok (p.after r) := by
  cases r with
  | allocate name placement alignment size =>
    unfold Partition.after
    dsimp only
    split
    · next b p' ha => exact Or.inr (Or.inl ⟨name, placement, alignment, size, b, ha⟩)
    · exact Or.inl rfl
  | free b =>
    unfold Partition.after
    dsimp only
    split
    · next p' hfree => exact Or.inr (Or.inr ⟨b, hfree⟩)
    · exact Or.inl rfl

theorem Sound.after (h : p.Sound) (r : PartitionRequest) : (p.after r).Sound := by
  obtain heq | ⟨_, _, _, _, b, ha⟩ | ⟨b, hfree⟩ := p.after_cases r
  · exact heq.symm ▸ h
  · exact (h.allocate ha).1
  · exact h.of_free hfree

/-- **Requests keep a partition sound.** -/
theorem Sound.run (h : p.Sound) (requests : List PartitionRequest) : (p.run requests).Sound := by
  induction requests generalizing p with
  | nil => exact h
  | cons r rest ih => exact ih (h.after r)

/-- Only the blocks of a partition ever change. -/
theorem exists_blocks_run (p : Partition) (requests : List PartitionRequest) :
    ∃ blocks, p.run requests = { p with blocks } := by
  have hstep : ∀ (p : Partition) r, ∃ blocks, p.after r = { p with blocks } := by
    intro p r
    obtain heq | ⟨_, _, _, _, b, ha⟩ | ⟨b, hfree⟩ := p.after_cases r
    · exact ⟨p.blocks, heq⟩
    · obtain ⟨-, -, -, -, heq⟩ := exists_of_allocate ha
      exact ⟨_, heq⟩
    · exact ⟨_, eq_of_free hfree⟩
  induction requests generalizing p with
  | nil => exact ⟨p.blocks, rfl⟩
  | cons r rest ih =>
    obtain ⟨blocks, hfirst⟩ := hstep p r
    obtain ⟨blocks', hrest⟩ := ih (p.after r)
    refine ⟨blocks', ?_⟩
    show (p.after r).run rest = _
    rw [hrest, hfirst]

end Partition

namespace Kernel

variable {k : Kernel} {n : PartitionId} {p : Partition} {e : KernelError}

/-- An allocation that the partition refuses leaves no trace but in the journal. -/
theorem allocateBlock_of_error {name : String} {placement : Placement} {alignment size : UInt32}
    (hp : k.partitions[n]? = some p) (h : p.allocate name placement alignment size = .error e) :
    (k.allocateBlock n name placement alignment size).result = .error e ∧
      Noted k (k.allocateBlock n name placement alignment size).kernel := by
  unfold allocateBlock
  rw [hp]
  dsimp only
  rw [h]
  exact ⟨rfl, .noteAll k _⟩

theorem freeBlock_of_error {b : Block} (hp : k.partitions[n]? = some p) (h : p.free b = .error e) :
    (k.freeBlock n b).result = .error e ∧ Noted k (k.freeBlock n b).kernel := by
  unfold freeBlock
  rw [hp]
  dsimp only
  rw [h]
  exact ⟨rfl, .noteAll k _⟩

end Kernel

namespace Partition

/-- **What a partition is worth at any time.** After any requests to a new partition that lies below `2 ^ 32`:

* the blocks are not empty, do not overlap and lie inside the partition;
* the used bytes are the sum of their sizes, and with the free bytes they make up the size of the partition;
* the gaps, in ascending order, are the maximal ranges of free addresses, and their lengths sum up to the free bytes;
* without an alignment `n` bytes can be had, from below or from above, exactly up to the size of the largest gap;
* a request that is refused changes nothing, and a kernel that makes it changes nothing but its journal;
* a block is taken back exactly if one of its address and size is allocated, and that one goes;
* taking back the block that was just allocated undoes the allocation. -/
theorem accounts_run (id : PartitionId) (name : String) (base size : UInt32) (hbelow : base.toNat + size.toNat < 2 ^ 32)
    (requests : List PartitionRequest) (p : Partition) (hp : p = Partition.run ⟨id, name, base, size, []⟩ requests) :
    (p.blocks.Pairwise Block.Apart ∧
      ∀ b ∈ p.blocks, 0 < b.size.toNat ∧ base.toNat ≤ b.address.toNat ∧ b.stop ≤ base.toNat + size.toNat) ∧
    ((p.blocks.map (·.size.toNat)).sum = p.usedBytes.toNat ∧
      p.usedBytes.toNat + p.freeBytes.toNat = size.toNat) ∧
    ((∀ g, g ∈ p.gaps ↔ g.Maximal p.IsFree) ∧ (p.gaps.Pairwise fun g g' => g.stop < g'.start) ∧
      (p.gaps.map Gap.length).sum = p.freeBytes.toNat) ∧
    (∀ block placement alignment n, placement = .low ∨ placement = .high → alignment ≤ 1 →
      ((∃ r, p.allocate block placement alignment n = .ok r) ↔ 0 < n ∧ n ≤ p.maxFreeBlock)) ∧
    (∀ e block placement alignment n, p.allocate block placement alignment n = .error e →
      p.after (.allocate block placement alignment n) = p ∧
      ∀ k : Kernel, k.partitions[id]? = some p →
        (k.allocateBlock id block placement alignment n).result = .error e ∧
        k.Noted (k.allocateBlock id block placement alignment n).kernel) ∧
    (∀ e b, p.free b = .error e → p.after (.free b) = p ∧
      ∀ k : Kernel, k.partitions[id]? = some p →
        (k.freeBlock id b).result = .error e ∧ k.Noted (k.freeBlock id b).kernel) ∧
    (∀ b, ((∃ p', p.free b = .ok p') ↔ ∃ c ∈ p.blocks, c.address = b.address ∧ c.size = b.size) ∧
      ∀ p', p.free b = .ok p' → ∃ front c back, p.blocks = front ++ c :: back ∧
        c.address = b.address ∧ c.size = b.size ∧ p' = { p with blocks := front ++ back }) ∧
    ∀ block placement alignment n b p', p.allocate block placement alignment n = .ok (b, p') →
      p'.blocks.Perm (b :: p.blocks) ∧ p'.free b = .ok p := by
  have hnew : (⟨id, name, base, size, []⟩ : Partition).Sound := ⟨hbelow, nofun, .nil⟩
  have hsound : p.Sound := hp ▸ hnew.run requests
  obtain ⟨blocks, hblocks⟩ := exists_blocks_run ⟨id, name, base, size, []⟩ requests
  have hrange : p.stop = base.toNat + size.toNat ∧ p.base = base ∧ p.size = size := by
    rw [hp, hblocks]
    exact ⟨rfl, rfl, rfl⟩
  obtain ⟨hstop, hbase, hsize⟩ := hrange
  obtain ⟨hgaps, htotal⟩ := hsound.sum_gaps
  refine ⟨⟨hsound.ascending.imp Or.inl, fun b hb => ?_⟩, ⟨hsound.toNat_usedBytes.symm, hsize ▸ htotal⟩,
    ⟨fun g => hsound.mem_gaps_iff, hsound.laid.pairwise_gapsFrom, hgaps⟩,
    fun block placement alignment n => hsound.allocates_iff, fun e block placement alignment n he => ⟨?_, fun k hk => ?_⟩,
    fun e b he => ⟨?_, fun k hk => Kernel.freeBlock_of_error hk he⟩,
    fun b => ⟨⟨fun ⟨p', hfree⟩ => ?_, fun ⟨c, hc, heq⟩ => ?_⟩, fun p' => hsound.free_iff.mp⟩,
    fun block placement alignment n b p' ha => (hsound.allocate ha).2⟩
  · obtain ⟨hfrom, hpos, hto⟩ := hsound.inside b hb
    rw [hbase] at hfrom
    rw [hstop] at hto
    exact ⟨hpos, hfrom, hto⟩
  · unfold Partition.after
    dsimp only
    rw [he]
  · exact Kernel.allocateBlock_of_error hk he
  · unfold Partition.after
    dsimp only
    rw [he]
  · obtain ⟨front, c, back, hsplit, heq⟩ := hsound.free_iff.mp hfree
    refine ⟨c, ?_, heq.1, heq.2.1⟩
    rw [hsplit]
    simp
  · obtain ⟨front, back, hsplit⟩ := List.append_of_mem hc
    exact ⟨_, hsound.free_iff.mpr ⟨front, c, back, hsplit, heq.1, heq.2, rfl⟩⟩

/-- Two blocks from below and one from above; then the first goes back. -/
def fragmented : List PartitionRequest :=
  [.allocate "first" .low 0x100 0x80, .allocate "second" .low 0x100 0x180, .allocate "last" .high 0x40 0x1f0,
    .free ⟨"first", 0x1000, 0x80⟩]

/-- The partition is in three pieces: the gap before the second block, the one behind it, and the rounding above the last
one. The largest is what can still be had. -/
theorem accounts_fragmented :
    let p := Partition.run ⟨2, "user", 0x1000, 0x1000, []⟩ fragmented
    p.gaps = [⟨0x1000, 0x1100⟩, ⟨0x1280, 0x1e00⟩, ⟨0x1ff0, 0x2000⟩] ∧ p.maxFreeBlock = 0xb80 ∧
      (p.gaps.map Gap.length).sum = p.freeBytes.toNat ∧
      (∃ r, p.allocate "largest" .high 1 0xb80 = .ok r) ∧ ¬ ∃ r, p.allocate "larger" .low 0 0xb81 = .ok r := by
  obtain ⟨-, -, ⟨-, -, hsum⟩, hfits, -⟩ :=
    accounts_run 2 "user" 0x1000 0x1000 (by decide) fragmented _ rfl
  refine ⟨by decide, by decide, hsum, ?_, ?_⟩
  · exact (hfits "largest" .high 1 0xb80 (Or.inr rfl) (by decide)).mpr (by decide)
  · exact fun h => absurd ((hfits "larger" .low 0 0xb81 (Or.inl rfl) (by decide)).mp h) (by decide)

end Partition
end GuestKernel
