/-
# Where a block ends

The end of a partition is a number, the end of a block a word. For a block with the last byte of its partition both are
the same address, and if that is `2 ^ 32`, no word holds it.

| the partition ends | a block starts | a block ends |
| --- | --- | --- |
| below `2 ^ 32` | at a word | at a word |
| at `2 ^ 32` | at a word | at a word, or at `2 ^ 32` with the last byte |

What carries this is a bound from above alone: a gap ends with the partition or where a block starts, so no block ends
past the partition (`Capped`). It does not ask for blocks that lie apart. This matters, since the scan for gaps goes on
from the end of the last block: once that has overflowed it takes the whole address space for free
(`gapsFrom_concat`), and blocks may overlap from then on.

Source: specification, 4.1.
-/

import GuestKernel.Proofs.BlockPlacement

namespace GuestKernel

/-! ### The end of a block as a word -/

namespace Block

variable {b : Block}

theorem overflows_iff : b.overflows = true ↔ 2 ^ 32 ≤ b.stop := decide_eq_true_iff

theorem not_overflows_iff : b.overflows = false ↔ b.stop < 2 ^ 32 := by
  rw [← Bool.not_eq_true, overflows_iff, Nat.not_le]

/-- The word for the end of a block up to `2 ^ 32` is that end, or 0 if it overflows. -/
theorem toNat_upperBound_eq (h : b.stop ≤ 2 ^ 32) : b.upperBound.toNat = if b.overflows then 0 else b.stop := by
  split
  · next hover =>
    have hstop : b.stop = 2 ^ 32 := Nat.le_antisymm h (overflows_iff.mp hover)
    unfold upperBound
    rw [UInt32.toNat_add, show b.address.toNat + b.size.toNat = 2 ^ 32 from hstop]
    exact Nat.mod_self _
  · next hover => exact toNat_upperBound (not_overflows_iff.mp (Bool.eq_false_iff.mpr hover))

end Block

/-- A thread starts with its stack pointer at the end of its stack. -/
theorem Thread.get_initialRegisters_sp {t : Thread} {b : Block} (h : t.stack = some b) (length address : UInt32) :
    (t.initialRegisters length address).get Register.sp = b.upperBound := by
  unfold initialRegisters
  rw [h]
  exact Vector.getElem_set_self _

/-! ### The scan -/

section Scan

variable {stop cursor : Nat} {b c : Block} {blocks front : List Block} {g : Gap}

/-- The scan for gaps with ends of blocks that are numbers. -/
def exactGapsFrom (stop : Nat) : (cursor : Nat) → List Block → List Gap
  | cursor, [] => if cursor < stop then [⟨cursor, stop⟩] else []
  | cursor, b :: rest =>
    let later := exactGapsFrom stop b.stop rest
    if cursor < b.address.toNat then ⟨cursor, b.address.toNat⟩ :: later else later

/-- **A last block that overflows adds all addresses to the gaps**; apart from that the scan is exact if no other block
overflows. -/
theorem gapsFrom_concat (hfront : ∀ c ∈ front, c.overflows = false) (hstop : stop ≤ 2 ^ 32) (hb : b.stop ≤ stop) :
    gapsFrom stop cursor (front ++ [b]) =
      exactGapsFrom stop cursor (front ++ [b]) ++ if b.overflows then [⟨0, 2 ^ 32⟩] else [] := by
  have hword := Block.toNat_upperBound_eq (Nat.le_trans hb hstop)
  induction front generalizing cursor with
  | nil =>
    simp only [List.nil_append, gapsFrom, exactGapsFrom, hword]
    by_cases hover : b.overflows = true
    · -- The block ends with the range, so the exact scan has nothing left behind it.
      have hend : 2 ^ 32 ≤ b.stop := Block.overflows_iff.mp hover
      obtain rfl : stop = 2 ^ 32 := Nat.le_antisymm hstop (Nat.le_trans hend hb)
      rw [if_pos hover, if_pos hover, if_pos (Nat.two_pow_pos 32), if_neg (Nat.not_lt.mpr hend)]
      split <;> rfl
    · rw [if_neg hover, if_neg hover, List.append_nil]
  | cons c rest ih =>
    have hc := Block.toNat_upperBound (Block.not_overflows_iff.mp (hfront c (List.mem_cons_self ..)))
    simp only [List.cons_append, gapsFrom, exactGapsFrom, hc, ih fun d hd => hfront d (List.mem_cons_of_mem c hd)]
    split <;> rfl

/-- A gap ends with the range or where a block starts. -/
theorem stop_le_of_mem_gapsFrom (hblocks : ∀ b ∈ blocks, b.address.toNat ≤ stop)
    (hg : g ∈ gapsFrom stop cursor blocks) : g.stop ≤ stop := by
  induction blocks generalizing cursor with
  | nil =>
    unfold gapsFrom at hg
    split at hg
    · rw [List.mem_singleton.mp hg]
    · cases hg
  | cons b rest ih =>
    have hrest : g ∈ gapsFrom stop b.upperBound.toNat rest → g.stop ≤ stop :=
      ih fun c hc => hblocks c (List.mem_cons_of_mem b hc)
    simp only [gapsFrom] at hg
    split at hg
    · rcases List.mem_cons.mp hg with rfl | hg
      · exact hblocks b (List.mem_cons_self ..)
      · exact hrest hg
    · exact hrest hg

/-- Inserting a block brings in no other. -/
theorem mem_insertBlock (h : c ∈ insertBlock b blocks) : c = b ∨ c ∈ blocks := by
  induction blocks with
  | nil => exact Or.inl (List.mem_singleton.mp h)
  | cons d rest ih =>
    unfold insertBlock at h
    split at h
    · exact List.mem_cons.mp h
    · split at h
      · exact (List.mem_cons.mp h).imp_right (List.mem_cons_of_mem d)
      · rcases List.mem_cons.mp h with rfl | h
        · exact Or.inr (List.mem_cons_self ..)
        · exact (ih h).imp_right (List.mem_cons_of_mem d)

end Scan

namespace Partition

variable {p p' : Partition} {b : Block} {name : String} {placement : Placement} {alignment size : UInt32}

/-! ### Every sequence of requests -/

/-- The partition ends at `2 ^ 32` or before, and none of its blocks ends past it. -/
structure Capped (p : Partition) : Prop where
  fits : p.stop ≤ 2 ^ 32
  ends : ∀ b ∈ p.blocks, b.stop ≤ p.stop

/-- A placed block ends where its partition does, or before. -/
theorem Capped.add_le_of_place? (h : p.Capped) {alignment size address : Nat}
    (hp : p.place? placement alignment size = some address) : address + size ≤ p.stop := by
  obtain ⟨g, hg, hfits⟩ := fits_of_place? hp
  have hstart : ∀ b ∈ p.blocks, b.address.toNat ≤ p.stop :=
    fun b hb => Nat.le_trans (Nat.le_add_right ..) (h.ends b hb)
  exact Nat.le_trans (Gap.fits_iff.mp hfits).2 (stop_le_of_mem_gapsFrom hstart hg)

/-- **A word holds every address that is chosen**: there is at least one byte from there to the end of the partition. -/
theorem Capped.toNat_ofNat_of_place? (h : p.Capped) {alignment size address : Nat} (hsize : 0 < size)
    (hp : p.place? placement alignment size = some address) : (UInt32.ofNat address).toNat = address := by
  have hend := h.add_le_of_place? hp
  have hfits := h.fits
  rw [UInt32.toNat_ofNat']
  exact Nat.mod_eq_of_lt (by omega)

/-- The block that a request gets starts at the address that was chosen for it. -/
theorem Capped.allocate_iff_place? (h : p.Capped) {a : UInt32} :
    (∃ p', p.allocate name placement alignment size = .ok (⟨name, a, size⟩, p')) ↔
      0 < size ∧ p.place? placement alignment.toNat size.toNat = some a.toNat := by
  constructor
  · rintro ⟨p', ha⟩
    obtain ⟨hsize, address, hp, hb, -⟩ := exists_of_allocate ha
    have haddress : a = UInt32.ofNat address := congrArg Block.address hb
    rw [haddress, h.toNat_ofNat_of_place? (UInt32.lt_iff_toNat_lt.mp hsize) hp]
    exact ⟨hsize, hp⟩
  · rintro ⟨hsize, hp⟩
    have hsome := allocate_of_some name hsize hp
    rwa [UInt32.ofNat_toNat] at hsome

/-- An allocation keeps the ends below the limit. -/
theorem Capped.allocate (h : p.Capped) (ha : p.allocate name placement alignment size = .ok (b, p')) : p'.Capped := by
  obtain ⟨hsize, address, hp, hb, rfl⟩ := exists_of_allocate ha
  refine ⟨h.fits, fun c hc => ?_⟩
  rcases mem_insertBlock hc with rfl | hc
  · have hend := h.add_le_of_place? hp
    rw [← h.toNat_ofNat_of_place? (UInt32.lt_iff_toNat_lt.mp hsize) hp] at hend
    rw [hb]
    exact hend
  · exact h.ends c hc

/-- A request keeps the ends below the limit. -/
theorem Capped.after (h : p.Capped) (r : PartitionRequest) : (p.after r).Capped := by
  obtain heq | ⟨_, _, _, _, b, ha⟩ | ⟨b, hfree⟩ := p.after_cases r
  · exact heq.symm ▸ h
  · exact h.allocate ha
  · rw [eq_of_free hfree]
    exact ⟨h.fits, fun c hc => h.ends c (List.eraseP_sublist.subset hc)⟩

/-- **No request makes a block end past the partition.** -/
theorem Capped.run (h : p.Capped) (requests : List PartitionRequest) : (p.run requests).Capped := by
  induction requests generalizing p with
  | nil => exact h
  | cons r rest ih => exact ih (h.after r)

/-- **A block overflows exactly if it has the last byte of a partition that ends at `2 ^ 32`.** -/
theorem Capped.overflows_iff (h : p.Capped) (hb : b ∈ p.blocks) :
    b.overflows = true ↔ p.stop = 2 ^ 32 ∧ b.stop = p.stop := by
  have hends := h.ends b hb
  have hfits := h.fits
  rw [Block.overflows_iff]
  omega

/-- A new partition gives its last bytes to the first request from above. -/
theorem allocate_high_new (id : PartitionId) (name block : String) {base size n : UInt32} (halign : alignment ≤ 1)
    (hpos : 0 < n) (hn : n ≤ size) :
    ∃ p', (⟨id, name, base, size, []⟩ : Partition).allocate block .high alignment n =
      .ok (⟨block, UInt32.ofNat (base.toNat + size.toNat - n.toNat), n⟩, p') := by
  have hpos' : 0 < n.toNat := UInt32.lt_iff_toNat_lt.mp hpos
  have hn' : n.toNat ≤ size.toNat := UInt32.le_iff_toNat_le.mp hn
  have hgaps : (⟨id, name, base, size, []⟩ : Partition).gaps = [⟨base.toNat, base.toNat + size.toNat⟩] :=
    if_pos (show base.toNat < base.toNat + size.toNat by omega)
  have hdown : alignDown (base.toNat + size.toNat - n.toNat) alignment.toNat = base.toNat + size.toNat - n.toNat :=
    if_pos (UInt32.le_iff_toNat_le.mp halign)
  have hplace : (⟨id, name, base, size, []⟩ : Partition).place? .high alignment.toNat n.toNat =
      some (base.toNat + size.toNat - n.toNat) := by
    simp only [place?, hgaps, List.reverse_singleton, List.findSome?_singleton, Gap.highest?, hdown]
    rw [if_pos (by omega), if_pos (by omega)]
  exact allocate_of_some block hpos hplace

/-- **Addresses of blocks fit into a word, and so do their ends, but for one.** After any requests to a new partition
that ends at `2 ^ 32` or before:

* a request gets the address that is chosen for it, uncut;
* no block ends past the partition, and its end overflows exactly if it is `2 ^ 32`, which is then the end of the
  partition too; the end as a word, at which a thread with the block as its stack has its stack pointer, is the end, or 0
  if it overflows;
* if no block before the last one overflows, the scan finds the gaps between the ends as they are, and if the last block
  does, all addresses as well.

In every partition that ends at `2 ^ 32` the first request from above without an alignment gets a block that overflows,
whatever its size. -/
theorem blockEnds_run (id : PartitionId) (name : String) (base size : UInt32)
    (hfits : base.toNat + size.toNat ≤ 2 ^ 32) (requests : List PartitionRequest) :
    let new : Partition := ⟨id, name, base, size, []⟩
    let p := new.run requests
    (∀ block placement alignment n a, (∃ p', p.allocate block placement alignment n = .ok (⟨block, a, n⟩, p')) ↔
      0 < n ∧ p.place? placement alignment.toNat n.toNat = some a.toNat) ∧
    (∀ b ∈ p.blocks, b.stop ≤ base.toNat + size.toNat ∧
      (b.overflows = true ↔ base.toNat + size.toNat = 2 ^ 32 ∧ b.stop = 2 ^ 32) ∧
      b.upperBound.toNat = (if b.overflows then 0 else b.stop) ∧
      ∀ (t : Thread) length address, t.stack = some b →
        ((t.initialRegisters length address).get Register.sp).toNat = if b.overflows then 0 else b.stop) ∧
    (∀ front b, p.blocks = front ++ [b] → (∀ c ∈ front, c.overflows = false) →
      p.gaps = exactGapsFrom (base.toNat + size.toNat) base.toNat p.blocks ++
        if b.overflows then [⟨0, 2 ^ 32⟩] else []) ∧
    (base.toNat + size.toNat = 2 ^ 32 → ∀ block alignment n, alignment ≤ 1 → 0 < n → n ≤ size →
      ∃ b p', new.allocate block .high alignment n = .ok (b, p') ∧ b.overflows = true) := by
  intro new p
  have hnew : new.Capped := ⟨hfits, fun _ hb => absurd hb List.not_mem_nil⟩
  have hcapped : p.Capped := hnew.run requests
  obtain ⟨blocks, hblocks⟩ := exists_blocks_run new requests
  have hstop : p.stop = base.toNat + size.toNat := congrArg stop hblocks
  have hbase : p.base = base := congrArg Partition.base hblocks
  refine ⟨fun block placement alignment n a => hcapped.allocate_iff_place?, fun b hb => ?_, fun front b hsplit hfront => ?_,
    fun hend block alignment n halign hpos hn => ?_⟩
  · have hends := hstop ▸ hcapped.ends b hb
    have hword := Block.toNat_upperBound_eq (Nat.le_trans hends hfits)
    refine ⟨hends, ?_, hword, fun t length address ht => ?_⟩
    · rw [hcapped.overflows_iff hb, hstop]
      exact and_congr_right fun hend => by rw [hend]
    · rw [Thread.get_initialRegisters_sp ht, hword]
  · have hmem : b ∈ p.blocks := hsplit ▸ List.mem_append_right front (List.mem_singleton_self b)
    have hends := hstop ▸ hcapped.ends b hmem
    unfold gaps
    rw [hstop, hbase, hsplit]
    exact gapsFrom_concat hfront hfits hends
  · obtain ⟨p', ha⟩ := allocate_high_new id name block halign hpos hn
    refine ⟨_, p', ha, Block.overflows_iff.mpr ?_⟩
    have hpos' : 0 < n.toNat := UInt32.lt_iff_toNat_lt.mp hpos
    have hn' : n.toNat ≤ size.toNat := UInt32.le_iff_toNat_le.mp hn
    change 2 ^ 32 ≤ (UInt32.ofNat (base.toNat + size.toNat - n.toNat)).toNat + n.toNat
    rw [UInt32.toNat_ofNat', hend, Nat.mod_eq_of_lt (by omega)]
    omega

/-- A block from below and one from above. -/
def bothEnds : List PartitionRequest := [.allocate "first" .low 1 0x100, .allocate "last" .high 1 0x800]

/-- In the last page of the address space only the second of the blocks overflows. The scan still finds the gap between
them, and after it every address. -/
theorem blockEnds_lastPage :
    let p := Partition.run ⟨2, "top", 0xfffff000, 0x1000, []⟩ bothEnds
    p.blocks = [⟨"first", 0xfffff000, 0x100⟩, ⟨"last", 0xfffff800, 0x800⟩] ∧
      (⟨"first", 0xfffff000, 0x100⟩ : Block).upperBound.toNat = 0xfffff100 ∧
      p.gaps = [⟨0xfffff100, 0xfffff800⟩, ⟨0, 2 ^ 32⟩] := by
  obtain ⟨-, hblocks, hgaps, -⟩ := blockEnds_run 2 "top" 0xfffff000 0x1000 (by decide) bothEnds
  refine ⟨by decide, (hblocks ⟨"first", 0xfffff000, 0x100⟩ (by decide)).2.2.1, ?_⟩
  exact hgaps [⟨"first", 0xfffff000, 0x100⟩] ⟨"last", 0xfffff800, 0x800⟩ (by decide) (by decide)

/-- The partition does not go past the address space, and yet the end of one of its blocks is no word: 0 stands in its
place. -/
theorem upperBound_lastPage : (0xfffff000 : UInt32).toNat + (0x1000 : UInt32).toNat ≤ 2 ^ 32 ∧
    ∃ b ∈ (Partition.run ⟨2, "top", 0xfffff000, 0x1000, []⟩ bothEnds).blocks,
      b.overflows = true ∧ b.upperBound = 0 := by
  refine ⟨by decide, ⟨"last", 0xfffff800, 0x800⟩, ?_⟩
  decide

end Partition
end GuestKernel
