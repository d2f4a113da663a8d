/-
# Reads after writes

An address stands for one byte of one region, and several addresses stand for the same byte (`Memory.Maps`). Regions lie
apart and end below the mirrors, so the bytes of an access that is accepted are those of the addresses from its first
one on, without a jump (`Maps.add`). Whatever the widths and however two accesses overlap, a read after a write can then
be told byte by byte.

| position of the read | holds |
| --- | --- |
| stands for the byte of some position of the write | what was written there |
| else | what it held before |

This is `Overlaid`, and `read_write` says it of all reads, with what goes along with it: reads are accepted after a write
exactly if they were before, a refused write changes nothing, filling is writing, and a word is read back from any mirror.

Source: specification, 6.
-/

import GuestKernel.Proofs.PipeMoves
import Mathlib.Algebra.Group.Nat.Defs

namespace GuestKernel

/-! ### Bytes of numbers -/

/-- A number made from bytes fits in them. -/
theorem ofBytes_lt (bytes : List UInt8) : ofBytes bytes < 1 <<< (8 * bytes.length) := by
  induction bytes with
  | nil => decide
  | cons b rest ih =>
    have next : 1 <<< (8 * (rest.length + 1)) = 256 * 1 <<< (8 * rest.length) := by
      rw [Nat.mul_succ, Nat.shiftLeft_add, Nat.shiftLeft_eq _ 8, Nat.mul_comm]
    have hb := UInt8.toNat_lt b
    simp only [ofBytes, List.length_cons, next]
    omega

/-- The bytes of a number made from bytes are these bytes. -/
theorem toBytes_ofBytes (bytes : List UInt8) : toBytes bytes.length (ofBytes bytes) = bytes := by
  induction bytes with
  | nil => rfl
  | cons b rest ih =>
    have hb := UInt8.toNat_lt b
    have hmod : (b.toNat + 256 * ofBytes rest) % 256 = b.toNat := by omega
    have hdiv : (b.toNat + 256 * ofBytes rest) / 256 = ofBytes rest := by omega
    rw [List.length_cons, toBytes, ofBytes, hmod, hdiv, ih, UInt8.ofNat_toNat]

/-! ### Addresses and places -/

theorem toNat_masked (address : UInt32) : (address &&& addressMask).toNat = address.toNat % 2 ^ 30 := by
  rw [UInt32.toNat_and]
  exact Nat.and_two_pow_sub_one_eq_mod address.toNat 30

namespace RegionKind

variable {r r' : RegionKind} {address : UInt32}

/-- The bounds of a region are computed without wrapping around. -/
theorem contains_iff : r.contains address = true ↔
    r.base.toNat ≤ address.toNat ∧ address.toNat < r.base.toNat + r.size.toNat := by
  simp only [contains, Bool.and_eq_true, decide_eq_true_eq, UInt32.le_iff_toNat_le, UInt32.lt_iff_toNat_lt]
  refine and_congr_right fun hle => ?_
  rw [UInt32.toNat_sub_of_le _ _ (UInt32.le_iff_toNat_le.mpr hle)]
  omega

/-- Regions lie apart. -/
theorem eq_of_contains (h : r.contains address = true) (h' : r'.contains address = true) : r = r' := by
  rw [contains_iff] at h h'
  cases r <;> cases r' <;> first | rfl | (simp only [base, size] at h h'; simp at h h'; omega)

/-- Regions end below the mirrors. -/
theorem stop_lt (r : RegionKind) : r.base.toNat + r.size.toNat < 2 ^ 30 := by
  cases r <;> decide

end RegionKind

namespace Memory

variable {m m' : Memory} {a b : UInt32} {n i : Nat} {place : Place} {w : List UInt8} {r : RegionKind}

/-- The address, whatever its mirror, is that of the place, which is mapped. -/
def Maps (m : Memory) (address : UInt32) (place : Place) : Prop :=
  place.region ∈ m.regions ∧ place.offset < place.region.size.toNat ∧
    address.toNat % 2 ^ 30 = place.region.base.toNat + place.offset

/-- The region of an address is the one that contains it without its mirror bits. -/
theorem regionOf?_eq_some : m.regionOf? a = some r ↔ r ∈ m.regions ∧ r.contains (a &&& addressMask) = true := by
  unfold regionOf?
  constructor
  · intro h
    exact ⟨List.mem_of_find?_eq_some h, List.find?_some (p := fun r : RegionKind => r.contains (a &&& addressMask)) h⟩
  · rintro ⟨hmem, hin⟩
    cases hf : m.regions.find? (·.contains (a &&& addressMask)) with
    | none => exact absurd hin (List.find?_eq_none.mp hf r hmem)
    | some r' =>
      have hin' := List.find?_some (p := fun r : RegionKind => r.contains (a &&& addressMask)) hf
      rw [RegionKind.eq_of_contains hin' hin]

theorem toNat_offset (h : r.contains (a &&& addressMask) = true) :
    a.toNat % 2 ^ 30 = r.base.toNat + (placeIn r a).offset := by
  have hle := (RegionKind.contains_iff.mp h).1
  show _ = _ + ((a &&& addressMask) - r.base).toNat
  rw [UInt32.toNat_sub_of_le _ _ (UInt32.le_iff_toNat_le.mpr hle), ← toNat_masked]
  omega

/-- An address in a region maps to its place there. -/
theorem maps_iff : m.Maps a place ↔ m.regionOf? a = some place.region ∧ place = placeIn place.region a := by
  rw [regionOf?_eq_some]
  constructor
  · rintro ⟨hmem, hlt, heq⟩
    have hin : place.region.contains (a &&& addressMask) = true := by
      rw [RegionKind.contains_iff, toNat_masked]
      omega
    refine ⟨⟨hmem, hin⟩, ?_⟩
    have hoffset := toNat_offset hin
    rw [heq] at hoffset
    obtain ⟨region, offset⟩ := place
    simp only [placeIn, Place.mk.injEq, true_and]
    simp only [placeIn] at hoffset
    omega
  · rintro ⟨⟨hmem, hin⟩, hplace⟩
    have hoffset := toNat_offset hin
    rw [← hplace] at hoffset
    have hlt := (RegionKind.contains_iff.mp hin).2
    rw [toNat_masked] at hlt
    exact ⟨hmem, by omega, hoffset⟩

/-- An address is translated to the place that it maps to. -/
theorem translate_eq_ok : m.translate a = .ok place ↔ m.Maps a place := by
  rw [maps_iff]
  unfold translate
  cases hr : m.regionOf? a with
  | none => simp
  | some r =>
    simp only [Except.ok.injEq, Option.some.injEq]
    constructor
    · rintro rfl
      exact ⟨rfl, rfl⟩
    · rintro ⟨rfl, hplace⟩
      exact hplace.symm

/-- Bytes are located where they lie in one region from the first to the last. -/
theorem locate_eq_ok :
    m.locate a n = .ok place ↔ m.Maps a place ∧ place.offset + n ≤ place.region.size.toNat := by
  rw [maps_iff]
  unfold locate
  cases hr : m.regionOf? a with
  | none => simp
  | some r =>
    dsimp only
    constructor
    · intro h
      split at h
      · next hle =>
        cases h
        exact ⟨⟨rfl, rfl⟩, hle⟩
      · cases h
    · rintro ⟨⟨hregion, hplace⟩, hle⟩
      obtain rfl := Option.some.inj hregion
      rw [← hplace, if_pos hle]

/-- Mirrors map to the same place. -/
theorem Maps.mirror (h : m.Maps a place) (hab : b &&& addressMask = a &&& addressMask) : m.Maps b place := by
  refine ⟨h.1, h.2.1, ?_⟩
  rw [← toNat_masked, hab, toNat_masked]
  exact h.2.2

/-- **The next addresses map to the next bytes**, as far as the region goes. -/
theorem Maps.add (h : m.Maps a place) (hi : place.offset + i < place.region.size.toNat) :
    m.Maps (a + UInt32.ofNat i) ⟨place.region, place.offset + i⟩ := by
  obtain ⟨hmem, hlt, heq⟩ := h
  have hstop := place.region.stop_lt
  refine ⟨hmem, hi, ?_⟩
  show (a + UInt32.ofNat i).toNat % 2 ^ 30 = place.region.base.toNat + (place.offset + i)
  rw [UInt32.toNat_add, UInt32.toNat_ofNat']
  omega

/-! ### Stores -/

theorem cells_store_of_lt (m : Memory) (place : Place) (hi : i < w.length) :
    (m.store place w).cells place.region (place.offset + i) = w[i] := by
  show (if place.region = place.region ∧ place.offset ≤ place.offset + i then _ else _) = _
  rw [if_pos ⟨rfl, Nat.le_add_right ..⟩, Nat.add_sub_cancel_left, List.getElem?_toArray,
    List.getElem?_eq_getElem hi, Option.getD_some]

/-- A store leaves all bytes alone but its own. -/
theorem cells_store_of_ne (m : Memory) (place : Place) {offset : Nat}
    (h : ∀ i < w.length, (⟨place.region, place.offset + i⟩ : Place) ≠ ⟨r, offset⟩) :
    (m.store place w).cells r offset = m.cells r offset := by
  show (if r = place.region ∧ place.offset ≤ offset then _ else _) = _
  split
  · next hin =>
    obtain ⟨rfl, hle⟩ := hin
    have hout : w.length ≤ offset - place.offset := by
      refine Nat.le_of_not_lt fun hlt => h _ hlt ?_
      rw [Nat.add_sub_cancel' hle]
    rw [List.getElem?_toArray, List.getElem?_eq_none hout, Option.getD_none]
  · rfl

theorem getElem?_bytesAt (m : Memory) (place : Place) {n j : Nat} (hj : j < n) :
    (m.bytesAt place n)[j]? = some (m.cells place.region (place.offset + j)) := by
  simp [bytesAt, hj]

/-- The bytes from a place on, in two parts. -/
theorem bytesAt_add (m : Memory) (place : Place) (i j : Nat) :
    m.bytesAt place (i + j) = m.bytesAt place i ++ m.bytesAt ⟨place.region, place.offset + i⟩ j := by
  unfold bytesAt
  rw [List.range_add, List.map_append, List.map_map]
  simp only [Function.comp_def, Nat.add_assoc]

/-- What is stored is there. -/
theorem bytesAt_store (m : Memory) (place : Place) (w : List UInt8) : (m.store place w).bytesAt place w.length = w := by
  refine List.ext_getElem? fun j => ?_
  by_cases hj : j < w.length
  · rw [getElem?_bytesAt _ _ hj, cells_store_of_lt m place hj, List.getElem?_eq_getElem hj]
  · rw [List.getElem?_eq_none (by rw [length_bytesAt]; omega), List.getElem?_eq_none (by omega)]

/-! ### Reads after writes -/

/-- What a read at `b` gives before and after the bytes `w` were written at `a`: it is refused both times, or each of its
positions holds the byte of `w` that was written to the same place, and the old one if none was. -/
inductive Overlaid (m : Memory) (a : UInt32) (w : List UInt8) (b : UInt32) :
    Except Fault (List UInt8) → Except Fault (List UInt8) → Prop where
  | refused (f : Fault) : Overlaid m a w b (.error f) (.error f)
  | read {old new : List UInt8} (length : new.length = old.length)
      (positions : ∀ j < old.length, ∃ place, m.translate (b + UInt32.ofNat j) = .ok place ∧
        (∀ i < w.length, m.translate (a + UInt32.ofNat i) = .ok place → new[j]? = w[i]?) ∧
        ((∀ i < w.length, m.translate (a + UInt32.ofNat i) ≠ .ok place) → new[j]? = old[j]?)) :
      Overlaid m a w b (.ok old) (.ok new)

/-- An accepted write stores its bytes from the place of its address on. -/
theorem writeBytes_eq_ok (h : m.writeBytes a w = .ok m') :
    ∃ place, m.locate a w.length = .ok place ∧ m' = m.store place w := by
  unfold writeBytes at h
  cases hl : m.locate a w.length with
  | error f =>
    rw [hl] at h
    cases h
  | ok place =>
    rw [hl] at h
    cases h
    exact ⟨place, rfl, rfl⟩

/-- The positions of an accepted access map to the bytes from the place of its address on. -/
theorem translate_add (h : m.locate a n = .ok place) (hi : i < n) :
    m.translate (a + UInt32.ofNat i) = .ok ⟨place.region, place.offset + i⟩ := by
  obtain ⟨hmaps, hle⟩ := locate_eq_ok.mp h
  exact translate_eq_ok.mpr (hmaps.add (by omega))

/-- **Reads after a write**, byte by byte. -/
theorem overlaid_readBytes (h : m.writeBytes a w = .ok m') (b : UInt32) (n : Nat) :
    m.Overlaid a w b (m.readBytes b n) (m'.readBytes b n) := by
  have hsame := locate_of_writeBytes h b n
  obtain ⟨p, hp, rfl⟩ := writeBytes_eq_ok h
  unfold readBytes
  rw [hsame]
  cases hq : m.locate b n with
  | error f => exact .refused f
  | ok q =>
    refine .read (by simp) fun j hj => ?_
    rw [length_bytesAt] at hj
    refine ⟨_, translate_add hq hj, fun i hi heq => ?_, fun hnone => ?_⟩
    · -- The position of the read is one of the write.
      rw [translate_add hp hi, Except.ok.injEq, Place.mk.injEq] at heq
      rw [getElem?_bytesAt _ _ hj, ← heq.1, ← heq.2, cells_store_of_lt m p hi, List.getElem?_eq_getElem hi]
    · rw [getElem?_bytesAt _ _ hj, getElem?_bytesAt _ _ hj, cells_store_of_ne]
      intro i hi heq
      exact hnone i hi ((translate_add hp hi).trans (congrArg Except.ok heq))

/-- **What was written is read back**, from any mirror. -/
theorem readBytes_mirror (h : m.writeBytes a w = .ok m') (hab : b &&& addressMask = a &&& addressMask) :
    m'.readBytes b w.length = .ok w := by
  have hsame := locate_of_writeBytes h b w.length
  obtain ⟨p, hp, rfl⟩ := writeBytes_eq_ok h
  obtain ⟨hmaps, hle⟩ := locate_eq_ok.mp hp
  unfold readBytes
  rw [hsame, locate_eq_ok.mpr ⟨hmaps.mirror hab, hle⟩]
  exact congrArg Except.ok (bytesAt_store m p w)

/-- Filling is writing one byte again and again. -/
theorem fill_eq_writeBytes (m : Memory) (a : UInt32) (value : UInt8) (n : Nat) :
    m.fill a value n = m.writeBytes a (List.replicate n value) := by
  unfold fill writeBytes
  rw [List.length_replicate]
  cases m.locate a n with
  | error f => rfl
  | ok place => exact congrArg Except.ok (storeRun_eq_store m place value n)

section Numbers

variable {α : Type} (make : Nat → α) (value : α → Nat)

/-- A number that is read has the bytes that are read, if its type holds so many. -/
theorem bytes_readNumber (hmake : ∀ x, x < 1 <<< (8 * n) → value (make x) = x) (m : Memory) (b : UInt32) :
    ((m.readBytes b n).map fun bytes => make (ofBytes bytes)).map (fun v => toBytes n (value v)) = m.readBytes b n := by
  cases h : m.readBytes b n with
  | error f => rfl
  | ok bytes =>
    have hlen := length_of_readBytes h
    subst hlen
    show Except.ok (toBytes bytes.length (value (make (ofBytes bytes)))) = _
    rw [hmake _ (ofBytes_lt bytes), toBytes_ofBytes]

/-- A number that is written is read back from any mirror. -/
theorem readNumber_mirror {x : Nat} (hx : x < 1 <<< (8 * n)) (h : m.writeBytes a (toBytes n x) = .ok m')
    (hab : b &&& addressMask = a &&& addressMask) :
    (m'.readBytes b n).map (fun bytes => make (ofBytes bytes)) = .ok (make x) := by
  have hread := readBytes_mirror h hab
  rw [length_toBytes] at hread
  rw [hread]
  show Except.ok (make (ofBytes (toBytes n x))) = _
  rw [ofBytes_toBytes, Nat.mod_eq_of_lt hx]

end Numbers

/-- **Guest memory obeys read-over-write.** For every memory, with or without its scratchpad and whatever it holds, every
address `a` and all bytes `w`:

* if `w` is written at `a`, each read is refused as before, or gives at each of its positions the byte of `w` that was
  written to the same place, and the old one if none was; words are read low byte first;
* if the write is refused, the memory of the kernel that asked for it is the same;
* filling is writing the same byte as often;
* a word that is written is read back from each mirror of its address. -/
theorem read_write (m : Memory) (a : UInt32) (w : List UInt8) :
    (∀ m', m.writeBytes a w = .ok m' →
      (∀ b n, m.Overlaid a w b (m.readBytes b n) (m'.readBytes b n)) ∧
      (∀ b, m.Overlaid a w b ((m.readByte b).map fun v => toBytes 1 v.toNat)
        ((m'.readByte b).map fun v => toBytes 1 v.toNat)) ∧
      (∀ b, m.Overlaid a w b ((m.readWord b).map fun v => toBytes 4 v.toNat)
        ((m'.readWord b).map fun v => toBytes 4 v.toNat)) ∧
      ∀ b, m.Overlaid a w b ((m.readLong b).map fun v => toBytes 8 v.toNat)
        ((m'.readLong b).map fun v => toBytes 8 v.toNat)) ∧
    (∀ f, m.writeBytes a w = .error f → ∀ k : Kernel, k.memory = m →
      (k.withMemory (m.writeBytes a w)).kernel.memory = m) ∧
    (∀ value n, m.fill a value n = m.writeBytes a (List.replicate n value)) ∧
    (∀ v m', m.writeWord a v = .ok m' → ∀ b, b &&& addressMask = a &&& addressMask → m'.readWord b = .ok v) ∧
    ∀ v m', m.writeLong a v = .ok m' → ∀ b, b &&& addressMask = a &&& addressMask → m'.readLong b = .ok v := by
  have hbyte := bytes_readNumber (n := 1) UInt8.ofNat UInt8.toNat fun x hx => Nat.mod_eq_of_lt hx
  have hword := bytes_readNumber (n := 4) UInt32.ofNat UInt32.toNat fun x hx => Nat.mod_eq_of_lt hx
  have hlong := bytes_readNumber (n := 8) UInt64.ofNat UInt64.toNat fun x hx => Nat.mod_eq_of_lt hx
  refine ⟨fun m' h => ⟨overlaid_readBytes h, fun b => ?_, fun b => ?_, fun b => ?_⟩, fun f h k hk => ?_,
    fun value n => fill_eq_writeBytes m a value n, fun v m' h b hab => ?_, fun v m' h b hab => ?_⟩
  · unfold readByte
    rw [hbyte, hbyte]
    exact overlaid_readBytes h b 1
  · unfold readWord
    rw [hword, hword]
    exact overlaid_readBytes h b 4
  · unfold readLong
    rw [hlong, hlong]
    exact overlaid_readBytes h b 8
  · rw [h]
    exact hk
  · have hread := readNumber_mirror UInt32.ofNat (UInt32.toNat_lt v) h hab
    rwa [UInt32.ofNat_toNat] at hread
  · have hread := readNumber_mirror UInt64.ofNat (UInt64.toNat_lt v) h hab
    rwa [UInt64.ofNat_toNat] at hread

/-- Four bytes are written through one mirror, from the third byte of main memory on, and a word is read through another
from the first byte on: two of its bytes are new. -/
theorem read_write_halfWord :
    ∃ m', ({} : Memory).writeBytes 0x48000002 [1, 2, 3, 4] = .ok m' ∧ m'.readWord 0x08000000 = .ok 0x02010000 ∧
      ({} : Memory).Overlaid 0x48000002 [1, 2, 3, 4] 0x08000000
        ((({} : Memory).readWord 0x08000000).map fun v => toBytes 4 v.toNat)
        ((m'.readWord 0x08000000).map fun v => toBytes 4 v.toNat) := by
  have hwrite : ({} : Memory).writeBytes 0x48000002 [1, 2, 3, 4] = .ok (({} : Memory).store ⟨.main, 2⟩ [1, 2, 3, 4]) :=
    exists_writeBytes rfl
  exact ⟨_, hwrite, rfl, ((read_write {} 0x48000002 [1, 2, 3, 4]).1 _ hwrite).2.2.1 0x08000000⟩

end Memory
end GuestKernel
