/-
# Text that ends at a zero byte

The guest hands over names as bytes that end at a zero, and three things may end the bytes that are read.

| end | what is read |
| --- | --- |
| a zero byte | the bytes before it |
| 256 bytes | those, and no zero is looked for after them |
| the end of the region | the bytes up to it |

No character but the zero one has a zero byte (`zero_notMem_encode`), so a text that is written with a zero after it comes
back, also if it is 256 bytes long and the zero is not reached (`readCString_of_store`). Whatever memory holds, what is
read is the longest beginning of the bytes in reach that has no zero in it (`CutAtZero`), and no byte out of reach counts.

Source: specification, 6.
-/

import GuestKernel.Proofs.MemoryRanges
import GuestKernel.Proofs.TextBytes

namespace GuestKernel

/-! ### Zero bytes -/

namespace Utf8

/-- The encoding of a character other than NUL has no zero byte. -/
theorem zero_notMem_utf8EncodeChar {c : Char} (h : c ≠ '\x00') : (0 : UInt8) ∉ String.utf8EncodeChar c := by
  have hpos : c.toNat ≠ 0 := fun hzero => h (by rw [← Char.ofNat_toNat c, hzero])
  have hbyte : ∀ {n : Nat}, n < 256 → n ≠ 0 → (0 : UInt8) ≠ UInt8.ofNat n := by
    intro n hn hne heq
    refine hne ?_
    rw [← UInt8.toNat_ofNat_of_lt' hn, ← heq, UInt8.toNat_zero]
  unfold String.utf8EncodeChar
  rw [show c.val.toNat = c.toNat from rfl]
  generalize c.toNat = v at hpos
  dsimp only
  -- All bytes of a character that takes several have their highest bit set.
  split
  · simp only [List.mem_singleton]
    exact hbyte (by omega) hpos
  split
  · simp only [List.mem_cons, List.not_mem_nil, or_false, not_or]
    exact ⟨hbyte (by omega) (by omega), hbyte (by omega) (by omega)⟩
  split
  · simp only [List.mem_cons, List.not_mem_nil, or_false, not_or]
    exact ⟨hbyte (by omega) (by omega), hbyte (by omega) (by omega), hbyte (by omega) (by omega)⟩
  · simp only [List.mem_cons, List.not_mem_nil, or_false, not_or]
    exact ⟨hbyte (by omega) (by omega), hbyte (by omega) (by omega), hbyte (by omega) (by omega),
      hbyte (by omega) (by omega)⟩

/-- **A text without the zero character has no zero byte.** -/
theorem zero_notMem_encode {s : String} (h : '\x00' ∉ s.toList) : (0 : UInt8) ∉ encode s := by
  intro hmem
  obtain ⟨c, hc, hzero⟩ := List.mem_flatMap.mp hmem
  exact zero_notMem_utf8EncodeChar (fun heq => h (heq ▸ hc)) hzero

end Utf8

/-- Bytes cut off at the first zero: the longest beginning that has none. -/
structure CutAtZero (bytes text : List UInt8) : Prop where
  beginning : text <+: bytes
  clean : (0 : UInt8) ∉ text
  longest : ∀ t, t <+: bytes → (0 : UInt8) ∉ t → t <+: text

theorem cutAtZero_takeWhile (bytes : List UInt8) : CutAtZero bytes (bytes.takeWhile (· != 0)) where
  beginning := List.takeWhile_prefix _
  clean hmem := absurd (List.all_eq_true.mp List.all_takeWhile 0 hmem) (by decide)
  longest t ht hclean := by
    obtain ⟨rest, rfl⟩ := ht
    have hall : ∀ b ∈ t, (b != 0) = true := fun b hb => bne_iff_ne.mpr fun heq => hclean (heq ▸ hb)
    rw [List.takeWhile_append_of_pos hall]
    exact List.prefix_append ..

namespace Memory

variable {m m' : Memory} {a : UInt32} {n : Nat} {place : Place}

/-! ### Bytes in reach -/

/-- The bytes that a text is read from: at most 256, and none past the region. -/
def reach (place : Place) : Nat := min maxCStringLength (place.region.size.toNat - place.offset)

theorem readCString_of_translate (h : m.translate a = .ok place) :
    m.readCString a = .ok (Utf8.decode ((m.bytesAt place (reach place)).takeWhile (· != 0))) := by
  have hlt := (translate_eq_ok.mp h).2.1
  unfold readCString
  rw [locate_of_translate h (by omega)]
  rfl

theorem readBytes_reach (h : m.translate a = .ok place) :
    m.readBytes a (reach place) = .ok (m.bytesAt place (reach place)) := by
  unfold readBytes
  rw [locate_of_translate h (n := reach place) (Nat.min_le_right ..)]
  rfl

/-- A text is read if one byte can be. -/
theorem agrees_readCString (m : Memory) (a : UInt32) : m.Agrees a 1 (m.readCString a) :=
  (agrees_locate m a 1).map _

/-! ### Texts that were written -/

/-- The bytes that are in reach from where a text and a zero have been stored begin with the text, and go on with the zero
if they go on. -/
theorem takeWhile_bytesAt_store {text : List UInt8} (hclean : (0 : UInt8) ∉ text) {count : Nat}
    (hcount : text.length ≤ count) :
    ((m.store place (text ++ [0])).bytesAt place count).takeWhile (· != 0) = text := by
  have hall : ∀ b ∈ text, (b != 0) = true := fun b hb => bne_iff_ne.mpr fun heq => hclean (heq ▸ hb)
  have hstored := bytesAt_store m place (text ++ [0])
  rw [List.length_append, List.length_singleton, bytesAt_add] at hstored
  obtain ⟨htext, hzero⟩ := List.append_inj hstored (by rw [length_bytesAt])
  obtain ⟨more, rfl⟩ := Nat.exists_eq_add_of_le hcount
  rw [bytesAt_add, htext, List.takeWhile_append_of_pos hall]
  cases more with
  | zero => exact List.append_nil text
  | succ more =>
    rw [Nat.add_comm more 1, bytesAt_add, hzero]
    exact List.append_nil text

/-- **A text that was written is read back**, if it has at most 256 bytes and none of its characters is the zero one. -/
theorem readCString_of_store {s : String} (hclean : '\x00' ∉ s.toList) (hshort : (Utf8.encode s).length ≤ 256)
    (hplace : m.locate a ((Utf8.encode s).length + 1) = .ok place) :
    (m.store place (Utf8.encode s ++ [0])).readCString a = .ok s := by
  obtain ⟨hmaps, hle⟩ := locate_eq_ok.mp hplace
  have htranslate : (m.store place (Utf8.encode s ++ [0])).translate a = .ok place := translate_eq_ok.mpr hmaps
  have hreach : (Utf8.encode s).length ≤ reach place := Nat.le_min.mpr ⟨hshort, by omega⟩
  rw [readCString_of_translate htranslate, takeWhile_bytesAt_store (Utf8.zero_notMem_encode hclean) hreach,
    Utf8.decode_encode]

/-- **C strings round-trip.** For every memory and address:

* a text without the zero character, of at most 256 bytes, that is written there with a zero after it is read back, if
  there is room for both;
* whatever memory holds, a text is read exactly if the address translates. It is what the longest beginning without a
  zero byte stands for, of the at most 256 bytes up to the end of the region. A memory with the same regions in which these
  bytes are the same gives the same text, so no byte past the region is read. -/
theorem cstrings_roundTrip (m : Memory) (a : UInt32) :
    (∀ s : String, '\x00' ∉ s.toList → (Utf8.encode s).length ≤ 256 →
      (∃ place, m.locate a ((Utf8.encode s).length + 1) = .ok place) →
      ∃ m', m.writeBytes a (Utf8.encode s ++ [0]) = .ok m' ∧ m'.readCString a = .ok s) ∧
    ((∃ s, m.readCString a = .ok s) ↔ ∃ place, m.translate a = .ok place) ∧
    ∀ place, m.translate a = .ok place → ∃ bytes text,
      m.readBytes a (min 256 (place.region.size.toNat - place.offset)) = .ok bytes ∧ CutAtZero bytes text ∧
      m.readCString a = .ok (Utf8.decode text) ∧
      ∀ m' : Memory, m'.hasScratchpad = m.hasScratchpad →
        m'.readBytes a (min 256 (place.region.size.toNat - place.offset)) = .ok bytes →
        m'.readCString a = .ok (Utf8.decode text) := by
  refine ⟨fun s hclean hshort hroom => ?_, ?_, fun place hplace => ?_⟩
  · obtain ⟨place, hplace⟩ := hroom
    have hlength : (Utf8.encode s ++ [0]).length = (Utf8.encode s).length + 1 := List.length_append
    exact ⟨_, exists_writeBytes (hlength ▸ hplace), readCString_of_store hclean hshort hplace⟩
  · rw [(agrees_readCString m a).accepted]
    constructor
    · rintro ⟨place, hplace⟩
      exact ⟨place, translate_eq_ok.mpr (locate_eq_ok.mp hplace).1⟩
    · rintro ⟨place, hplace⟩
      have hlt := (translate_eq_ok.mp hplace).2.1
      exact ⟨place, locate_of_translate hplace (by omega)⟩
  · refine ⟨_, _, readBytes_reach hplace, cutAtZero_takeWhile _, readCString_of_translate hplace,
      fun m' hregions hread => ?_⟩
    have hplace' : m'.translate a = .ok place := by
      refine translate_eq_ok.mpr ?_
      have hmaps := translate_eq_ok.mp hplace
      unfold Maps regions at hmaps ⊢
      rwa [hregions]
    have hsame := (readBytes_reach hplace').symm.trans hread
    rw [readCString_of_translate hplace', Except.ok.inj hsame]

/-- A text of two bytes and its zero take the last three bytes of the scratchpad. -/
theorem cstrings_roundTrip_endOfScratchpad : ∃ m',
    '\x00' ∉ "é".toList ∧ (Utf8.encode "é").length = 2 ∧
      ({} : Memory).locate 0x00013FFD 3 = .ok ⟨.scratchpad, 0x3FFD⟩ ∧
      ({} : Memory).writeBytes 0x00013FFD (Utf8.encode "é" ++ [0]) = .ok m' ∧ m'.readCString 0x00013FFD = .ok "é" := by
  have hclean : '\x00' ∉ "é".toList := by decide
  have hlength : (Utf8.encode "é").length = 2 := by decide
  have hroom : ({} : Memory).locate 0x00013FFD 3 = .ok ⟨.scratchpad, 0x3FFD⟩ := rfl
  obtain ⟨m', hwrite, hread⟩ := (cstrings_roundTrip {} 0x00013FFD).1 "é" hclean (by omega) ⟨_, by rw [hlength, hroom]⟩
  exact ⟨m', hclean, hlength, hroom, hwrite, hread⟩

end Memory
end GuestKernel
