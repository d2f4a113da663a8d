/-
# Which accesses are accepted

An access is checked before it is made: its first address is in a region, and the region goes on for as many bytes as
are wanted. Regions end below the mirrors, so the byte after the last one of a region is in none, whichever way the
addresses are counted (`exists_locate_iff`, `exists_locate_iff_addresses`). A range of no bytes still has a first
address.

| access | bytes checked |
| --- | ---: |
| `readBytes`, `writeBytes`, `fill` | as many as are moved |
| `readByte` | 1 |
| `readWord`, `writeWord` | 4 |
| `readLong`, `writeLong` | 8 |

All accesses make this one check (`Agrees`), and one that is refused is reported by the address that was asked for, never
by the one where the region ends.

Source: specification, 6.
-/

import GuestKernel.Proofs.MemoryAccess

namespace GuestKernel
namespace Memory

variable {m : Memory} {a b : UInt32} {n : Nat} {place : Place} {α β : Type}

/-! ### Ranges -/

theorem locate_of_translate (h : m.translate a = .ok place) (hn : n ≤ place.region.size.toNat - place.offset) :
    m.locate a n = .ok place := by
  have hmaps := translate_eq_ok.mp h
  have hlt := hmaps.2.1
  exact locate_eq_ok.mpr ⟨hmaps, by omega⟩

/-- **A range is accepted exactly if it stays in the region of its first byte**, counted from the masked address on. -/
theorem exists_locate_iff : (∃ place, m.locate a n = .ok place) ↔ ∃ place, m.translate a = .ok place ∧
    ∀ i < n, place.region.base.toNat ≤ (a &&& addressMask).toNat + i ∧
      (a &&& addressMask).toNat + i < place.region.base.toNat + place.region.size.toNat := by
  constructor
  · rintro ⟨place, hplace⟩
    obtain ⟨hmaps, hle⟩ := locate_eq_ok.mp hplace
    refine ⟨place, translate_eq_ok.mpr hmaps, fun i hi => ?_⟩
    rw [toNat_masked, hmaps.2.2]
    omega
  · rintro ⟨place, hplace, hall⟩
    have hmaps := translate_eq_ok.mp hplace
    have hlt := hmaps.2.1
    refine ⟨place, locate_eq_ok.mpr ⟨hmaps, Nat.le_of_not_lt fun hlong => ?_⟩⟩
    -- The first byte past the region is wanted.
    have hpast := (hall (place.region.size.toNat - place.offset) (by omega)).2
    rw [toNat_masked, hmaps.2.2] at hpast
    omega

/-- The same, by the addresses that the guest would use for the single bytes: they may come round, and the mirrors are
masked away again. -/
theorem exists_locate_iff_addresses : (∃ place, m.locate a n = .ok place) ↔ ∃ place, m.translate a = .ok place ∧
    ∀ i < n, m.regionOf? (a + UInt32.ofNat i) = some place.region := by
  constructor
  · rintro ⟨place, hplace⟩
    obtain ⟨hmaps, hle⟩ := locate_eq_ok.mp hplace
    exact ⟨place, translate_eq_ok.mpr hmaps, fun i hi => (maps_iff.mp (hmaps.add (by omega))).1⟩
  · rintro ⟨place, hplace, hall⟩
    have hmaps := translate_eq_ok.mp hplace
    have hlt := hmaps.2.1
    have heq := hmaps.2.2
    refine ⟨place, locate_eq_ok.mpr ⟨hmaps, Nat.le_of_not_lt fun hlong => ?_⟩⟩
    have hpast := hall (place.region.size.toNat - place.offset) (by omega)
    have hin := (RegionKind.contains_iff.mp (regionOf?_eq_some.mp hpast).2).2
    have hstop := place.region.stop_lt
    rw [toNat_masked, UInt32.toNat_add, UInt32.toNat_ofNat'] at hin
    omega

/-! ### Accesses -/

/-- An access to `n` bytes at an address agrees with the check of that range: it goes through exactly if the check does,
and if it is refused, the address is reported. -/
structure Agrees (m : Memory) (a : UInt32) (n : Nat) (r : Except Fault α) : Prop where
  accepted : (∃ x, r = .ok x) ↔ ∃ place, m.locate a n = .ok place
  refused : ∀ f, r = .error f → f.error = .invalidAddress a

/-- A range that is refused is reported by its first address, whether that is in no region or the region is too short. -/
theorem agrees_locate (m : Memory) (a : UInt32) (n : Nat) : m.Agrees a n (m.locate a n) := by
  refine ⟨Iff.rfl, fun f hf => ?_⟩
  unfold locate at hf
  split at hf
  · cases hf
    rfl
  · dsimp only at hf
    split at hf
    · cases hf
    · cases hf
      rfl

/-- What is done with the place of an accepted range cannot fail. -/
theorem Agrees.map {r : Except Fault α} (h : m.Agrees a n r) (f : α → β) : m.Agrees a n (r.map f) := by
  cases r with
  | ok x =>
    refine ⟨⟨fun _ => h.accepted.mp ⟨x, rfl⟩, fun _ => ⟨f x, rfl⟩⟩, fun fault hfault => ?_⟩
    cases hfault
  | error fault =>
    refine ⟨⟨?_, fun hplace => ?_⟩, fun fault' hfault => ?_⟩
    · rintro ⟨y, hy⟩
      cases hy
    · obtain ⟨x, hx⟩ := h.accepted.mpr hplace
      cases hx
    · cases hfault
      exact h.refused fault rfl

theorem agrees_readBytes (m : Memory) (a : UInt32) (n : Nat) : m.Agrees a n (m.readBytes a n) :=
  (agrees_locate m a n).map _

theorem agrees_writeBytes (m : Memory) (a : UInt32) (bytes : List UInt8) :
    m.Agrees a bytes.length (m.writeBytes a bytes) :=
  (agrees_locate m a bytes.length).map _

theorem agrees_fill (m : Memory) (a : UInt32) (value : UInt8) (n : Nat) : m.Agrees a n (m.fill a value n) :=
  (agrees_locate m a n).map _

/-- A number is written as so many bytes. -/
theorem agrees_writeNumber (m : Memory) (a : UInt32) (n value : Nat) :
    m.Agrees a n (m.writeBytes a (toBytes n value)) := by
  have hbytes := agrees_writeBytes m a (toBytes n value)
  rwa [length_toBytes] at hbytes

/-! ### Places -/

theorem exists_translate_iff : (∃ place, m.translate a = .ok place) ↔ m.isValid a = true := by
  unfold translate isValid
  cases m.regionOf? a with
  | none => simp
  | some region => exact ⟨fun _ => rfl, fun _ => ⟨_, rfl⟩⟩

theorem error_of_translate {f : Fault} (h : m.translate a = .error f) : f.error = .invalidAddress a := by
  unfold translate at h
  split at h
  · cases h
  · cases h
    rfl

/-- **Two addresses have the same place exactly if they are mirrors of each other.** -/
theorem translate_eq_iff {place' : Place} (ha : m.translate a = .ok place) (hb : m.translate b = .ok place') :
    place = place' ↔ a &&& addressMask = b &&& addressMask := by
  have hmaps := translate_eq_ok.mp ha
  have hmaps' := translate_eq_ok.mp hb
  constructor
  · rintro rfl
    apply UInt32.toNat_inj.mp
    rw [toNat_masked, toNat_masked, hmaps.2.2, hmaps'.2.2]
  · intro hab
    have hmirror := translate_eq_ok.mpr (hmaps'.mirror hab)
    exact Except.ok.inj (ha.symm.trans hmirror)

/-- **Range checks are exact, and all accesses share them.** For every memory, address and length:

* the check of the range succeeds exactly if its first address translates and all its bytes are in the region of the
  first, counted from the masked address on or by their own addresses;
* reads, writes and fills of so many bytes, and those of single bytes, words and long words, succeed exactly if the check
  of their range does, and else report the address;
* an address translates exactly if it is valid, to an offset inside a mapped region, and two that translate have the same
  place exactly if they are equal under the mask. -/
theorem rangeChecks_exact (m : Memory) (a : UInt32) (n : Nat) :
    ((∃ place, m.locate a n = .ok place) ↔ ∃ place, m.translate a = .ok place ∧
      ∀ i < n, place.region.base.toNat ≤ (a &&& addressMask).toNat + i ∧
        (a &&& addressMask).toNat + i < place.region.base.toNat + place.region.size.toNat) ∧
    ((∃ place, m.locate a n = .ok place) ↔ ∃ place, m.translate a = .ok place ∧
      ∀ i < n, m.regionOf? (a + UInt32.ofNat i) = some place.region) ∧
    (∀ f, m.locate a n = .error f → f.error = .invalidAddress a) ∧
    m.Agrees a n (m.readBytes a n) ∧
    (∀ bytes : List UInt8, bytes.length = n → m.Agrees a n (m.writeBytes a bytes)) ∧
    (∀ value, m.Agrees a n (m.fill a value n)) ∧
    m.Agrees a 1 (m.readByte a) ∧ m.Agrees a 4 (m.readWord a) ∧ m.Agrees a 8 (m.readLong a) ∧
    (∀ value, m.Agrees a 4 (m.writeWord a value)) ∧ (∀ value, m.Agrees a 8 (m.writeLong a value)) ∧
    ((∃ place, m.translate a = .ok place) ↔ m.isValid a = true) ∧
    (∀ f, m.translate a = .error f → f.error = .invalidAddress a) ∧
    (∀ place, m.translate a = .ok place → place.region ∈ m.regions ∧ place.offset < place.region.size.toNat) ∧
    ∀ b place place', m.translate a = .ok place → m.translate b = .ok place' →
      (place = place' ↔ a &&& addressMask = b &&& addressMask) := by
  refine ⟨exists_locate_iff, exists_locate_iff_addresses, (agrees_locate m a n).refused, agrees_readBytes m a n, ?_,
    fun value => agrees_fill m a value n, (agrees_readBytes m a 1).map _, (agrees_readBytes m a 4).map _,
    (agrees_readBytes m a 8).map _, fun value => agrees_writeNumber m a 4 value.toNat,
    fun value => agrees_writeNumber m a 8 value.toNat, exists_translate_iff, fun f => error_of_translate, ?_,
    fun b place place' => translate_eq_iff⟩
  · rintro bytes rfl
    exact agrees_writeBytes m a bytes
  · intro place hplace
    obtain ⟨hmem, hlt, -⟩ := translate_eq_ok.mp hplace
    exact ⟨hmem, hlt⟩

/-- The last two bytes of main memory, under two mirrors: a word there is refused at the address that was asked for. -/
theorem rangeChecks_exact_endOfMain :
    ({} : Memory).translate 0x49FFFFFE = .ok ⟨.main, 0x1FFFFFE⟩ ∧
      ({} : Memory).translate 0x89FFFFFE = .ok ⟨.main, 0x1FFFFFE⟩ ∧
      (0x49FFFFFE : UInt32) &&& addressMask = 0x89FFFFFE &&& addressMask ∧
      (∃ m', ({} : Memory).writeBytes 0x49FFFFFE [1, 2] = .ok m') ∧
      ∃ f, ({} : Memory).writeWord 0x49FFFFFE 1 = .error f ∧ f.error = .invalidAddress 0x49FFFFFE := by
  have hfirst : ({} : Memory).translate 0x49FFFFFE = .ok ⟨.main, 0x1FFFFFE⟩ := rfl
  have hsecond : ({} : Memory).translate 0x89FFFFFE = .ok ⟨.main, 0x1FFFFFE⟩ := rfl
  have hword : ({} : Memory).writeWord 0x49FFFFFE 1 = .error (.overrun 0x49FFFFFE 4 .main) := rfl
  obtain ⟨-, -, -, -, hwrite, -, -, -, -, hword', -, -, -, -, hplaces⟩ := rangeChecks_exact {} 0x49FFFFFE 2
  exact ⟨hfirst, hsecond, (hplaces 0x89FFFFFE _ _ hfirst hsecond).mp rfl,
    (hwrite [1, 2] rfl).accepted.mpr ⟨⟨.main, 0x1FFFFFE⟩, rfl⟩, _, hword, (hword' 1).refused _ hword⟩

end Memory
end GuestKernel
