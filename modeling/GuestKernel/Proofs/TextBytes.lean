/-
# Text comes back from its bytes

A character takes one to four bytes. The first says how many follow and how far the second may range, and the ranges
leave out exactly what no character has: values that fit in fewer bytes, surrogates, and values past the last.

| bytes | values |
| ---: | --- |
| 1 | up to `7F` |
| 2 | `80` to `7FF` |
| 3 | `800` to `D7FF`, `E000` to `FFFF` |
| 4 | `10000` to `10FFFF` |

Source: specification, 10.4.
-/

import GuestKernel.Text.Utf8

namespace GuestKernel
namespace Utf8

/-! ## The bytes of one character -/

/-- A byte begins a character of which `needed` bytes follow: it gives the bits `high`, and the range of the second byte
has `b`. -/
def Begins (first b needed high : Nat) : Prop :=
  ∃ p : Partial, start first = .more p ∧ p.value = high ∧ p.needed = needed ∧ p.low ≤ b ∧ b ≤ p.high

theorem begins_two {v : Nat} (hlow : 0x80 ≤ v) (hhigh : v < 0x800) :
    Begins (v / 64 % 32 + 192) (v % 64 + 128) 1 (v / 64) := by
  unfold Begins start
  rw [if_neg (by omega), if_neg (by omega), if_pos (by omega)]
  exact ⟨_, rfl, by dsimp only; omega, rfl, by dsimp only; omega, by dsimp only; omega⟩

/-- The first byte of three. -/
theorem begins_three {v : Nat} (hlow : 0x800 ≤ v) (hhigh : v < 0x10000) (hv : v.isValidChar) :
    Begins (v / 4096 % 16 + 224) (v / 64 % 64 + 128) 2 (v / 4096) := by
  unfold Begins start
  rw [if_neg (by omega), if_neg (by omega), if_neg (by omega)]
  -- Below `800` the second byte would be too low after `E0`, and a surrogate's too high after `ED`.
  split
  · exact ⟨_, rfl, by dsimp only; omega, rfl, by dsimp only; omega, by dsimp only; omega⟩
  split
  · exact ⟨_, rfl, by dsimp only; omega, rfl, by dsimp only; omega, by dsimp only; omega⟩
  rw [if_pos (by omega)]
  exact ⟨_, rfl, by dsimp only; omega, rfl, by dsimp only; omega, by dsimp only; omega⟩

/-- The first byte of four. -/
theorem begins_four {v : Nat} (hlow : 0x10000 ≤ v) (hv : v.isValidChar) :
    Begins (v / 262144 % 8 + 240) (v / 4096 % 64 + 128) 3 (v / 262144) := by
  unfold Begins start
  rw [if_neg (by omega), if_neg (by omega), if_neg (by omega), if_neg (by omega), if_neg (by omega),
    if_neg (by omega)]
  -- Likewise below `10000` after `F0`, and past the last value after `F4`.
  split
  · exact ⟨_, rfl, by dsimp only; omega, rfl, by dsimp only; omega, by dsimp only; omega⟩
  split
  · exact ⟨_, rfl, by dsimp only; omega, rfl, by dsimp only; omega, by dsimp only; omega⟩
  rw [if_pos (by omega)]
  exact ⟨_, rfl, by dsimp only; omega, rfl, by dsimp only; omega, by dsimp only; omega⟩

/-- A byte that carries six bits of a character. -/
theorem toNat_ofNat_tail (n : Nat) : (UInt8.ofNat (n % 64 + 128)).toNat = n % 64 + 128 :=
  UInt8.toNat_ofNat_of_lt' (by rw [UInt8.size]; omega)

/-- The last byte that is needed completes the character. -/
theorem decodeFrom_last {p : Partial} {n : Nat} {rest : List UInt8}
    (hlow : p.low ≤ n % 64 + 128) (hhigh : n % 64 + 128 ≤ p.high) (hneeded : p.needed = 1) :
    decodeFrom (some p) (UInt8.ofNat (n % 64 + 128) :: rest) =
      Char.ofNat (p.value * 64 + n % 64) :: decodeFrom none rest := by
  rw [decodeFrom, toNat_ofNat_tail, if_pos ⟨hlow, hhigh⟩, Nat.add_sub_cancel]
  exact if_pos (by omega)

/-- A byte that is needed adds six bits. -/
theorem decodeFrom_next {p : Partial} {n needed : Nat} {rest : List UInt8}
    (hlow : p.low ≤ n % 64 + 128) (hhigh : n % 64 + 128 ≤ p.high) (hneeded : p.needed = needed + 2) :
    decodeFrom (some p) (UInt8.ofNat (n % 64 + 128) :: rest) =
      decodeFrom (some ⟨p.value * 64 + n % 64, needed + 1, 0x80, 0xBF⟩) rest := by
  rw [decodeFrom, toNat_ofNat_tail, if_pos ⟨hlow, hhigh⟩, Nat.add_sub_cancel, hneeded]
  exact if_neg (by omega)

theorem Begins.decodeFrom {first b needed high : Nat} (h : Begins first b needed high) (hfirst : first < 256)
    (bytes : List UInt8) :
    ∃ p : Partial, decodeFrom none (UInt8.ofNat first :: bytes) = Utf8.decodeFrom (some p) bytes ∧
      p.value = high ∧ p.needed = needed ∧ p.low ≤ b ∧ b ≤ p.high := by
  obtain ⟨p, hstart, hp⟩ := h
  refine ⟨p, ?_, hp⟩
  rw [Utf8.decodeFrom, UInt8.toNat_ofNat_of_lt' hfirst, hstart]

/-- **A character is read back from its bytes**, whatever follows them. -/
theorem decodeFrom_utf8EncodeChar (c : Char) (rest : List UInt8) :
    decodeFrom none (String.utf8EncodeChar c ++ rest) = c :: decodeFrom none rest := by
  have hv : c.toNat.isValidChar := c.valid
  have hc : Char.ofNat c.toNat = c := Char.ofNat_toNat c
  unfold String.utf8EncodeChar
  rw [show c.val.toNat = c.toNat from rfl]
  generalize c.toNat = v at hv hc
  dsimp only
  split
  · have hstart : start v = .whole (Char.ofNat v) := if_pos (by omega)
    rw [List.singleton_append, decodeFrom, UInt8.toNat_ofNat_of_lt' (by rw [UInt8.size]; omega), hstart, hc]
  split
  · obtain ⟨p, hd, hvalue, hneeded, hlow, hhigh⟩ :=
      (begins_two (v := v) (by omega) (by omega)).decodeFrom (by omega) (UInt8.ofNat (v % 64 + 128) :: rest)
    refine hd.trans ((decodeFrom_last hlow hhigh hneeded).trans ?_)
    rw [hvalue, show v / 64 * 64 + v % 64 = v by omega, hc]
  split
  · obtain ⟨p, hd, hvalue, hneeded, hlow, hhigh⟩ := (begins_three (by omega) (by omega) hv).decodeFrom (by omega)
      (UInt8.ofNat (v / 64 % 64 + 128) :: UInt8.ofNat (v % 64 + 128) :: rest)
    refine hd.trans ((decodeFrom_next hlow hhigh hneeded).trans ?_)
    refine (decodeFrom_last (by dsimp only; omega) (by dsimp only; omega) rfl).trans ?_
    rw [hvalue, show (v / 4096 * 64 + v / 64 % 64) * 64 + v % 64 = v by omega, hc]
  · obtain ⟨p, hd, hvalue, hneeded, hlow, hhigh⟩ := (begins_four (by omega) hv).decodeFrom (by omega)
      (UInt8.ofNat (v / 4096 % 64 + 128) :: UInt8.ofNat (v / 64 % 64 + 128) :: UInt8.ofNat (v % 64 + 128) :: rest)
    refine hd.trans ((decodeFrom_next hlow hhigh hneeded).trans ?_)
    refine (decodeFrom_next (by dsimp only; omega) (by dsimp only; omega) rfl).trans ?_
    refine (decodeFrom_last (by dsimp only; omega) (by dsimp only; omega) rfl).trans ?_
    rw [hvalue, show ((v / 262144 * 64 + v / 4096 % 64) * 64 + v / 64 % 64) * 64 + v % 64 = v by omega, hc]

/-! ## The bytes of a text -/

theorem decodeFrom_flatMap (text : List Char) : decodeFrom none (text.flatMap String.utf8EncodeChar) = text := by
  induction text with
  | nil => rfl
  | cons c rest ih => rw [List.flatMap_cons, decodeFrom_utf8EncodeChar, ih]

@[simp] theorem decode_encode (s : String) : decode (encode s) = s := by
  rw [decode, encode, decodeFrom_flatMap, String.ofList_toList]

/-- **The bytes of a text are a text, the same one.** -/
@[simp] theorem decode?_encode (s : String) : decode? (encode s) = some s := by
  simp [decode?]

end Utf8
end GuestKernel
