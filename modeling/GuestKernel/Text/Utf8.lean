/-
# Text as bytes

Names cross the border between the kernel and guest memory as UTF-8. Encoding is exact. Decoding never fails:
each longest run of bytes that begins a character and cannot be completed becomes one replacement character, and so
does each byte that can begin none.

| first byte | next byte | bytes after it |
| --- | --- | ---: |
| `00`-`7F` | | 0 |
| `C2`-`DF` | `80`-`BF` | 0 |
| `E0` | `A0`-`BF` | 1 |
| `E1`-`EC`, `EE`, `EF` | `80`-`BF` | 1 |
| `ED` | `80`-`9F` | 1 |
| `F0` | `90`-`BF` | 2 |
| `F1`-`F3` | `80`-`BF` | 2 |
| `F4` | `80`-`8F` | 2 |

Source: specification, 6 and 10.4.
-/

namespace GuestKernel
namespace Utf8

/-- The bytes of a text. -/
def encode (s : String) : List UInt8 := s.toList.flatMap String.utf8EncodeChar

/-- What stands for bytes that are no text. -/
def replacement : Char := Char.ofNat 0xFFFD

/-- A character of which some bytes have been read: its value so far, how many bytes it still needs, and the
range of the next one. -/
structure Partial where
  value : Nat
  needed : Nat
  low : Nat
  high : Nat
deriving DecidableEq

/-- What a byte begins: a whole character, a partial one, or nothing. -/
inductive Start where
  | whole (c : Char)
  | more (p : Partial)
  | invalid
deriving DecidableEq

def start (b : Nat) : Start :=
  if b < 0x80 then .whole (Char.ofNat b)
  else if b < 0xC2 then .invalid
  else if b < 0xE0 then .more ⟨b - 0xC0, 1, 0x80, 0xBF⟩
  else if b = 0xE0 then .more ⟨0, 2, 0xA0, 0xBF⟩
  else if b = 0xED then .more ⟨0xD, 2, 0x80, 0x9F⟩
  else if b < 0xF0 then .more ⟨b - 0xE0, 2, 0x80, 0xBF⟩
  else if b = 0xF0 then .more ⟨0, 3, 0x90, 0xBF⟩
  else if b < 0xF4 then .more ⟨b - 0xF0, 3, 0x80, 0xBF⟩
  else if b = 0xF4 then .more ⟨4, 3, 0x80, 0x8F⟩
  else .invalid

/-- The characters of a byte string, given the character that is being read. -/
def decodeFrom : Option Partial → List UInt8 → List Char
  | none, [] => []
  | some _, [] => [replacement]
  | none, b :: rest =>
    match start b.toNat with
    | .whole c => c :: decodeFrom none rest
    | .more p => decodeFrom (some p) rest
    | .invalid => replacement :: decodeFrom none rest
  | some p, b :: rest =>
    if p.low ≤ b.toNat ∧ b.toNat ≤ p.high then
      let value := p.value * 64 + (b.toNat - 0x80)
      if p.needed ≤ 1 then Char.ofNat value :: decodeFrom none rest
      else decodeFrom (some ⟨value, p.needed - 1, 0x80, 0xBF⟩) rest
    else
      match start b.toNat with
      | .whole c => replacement :: c :: decodeFrom none rest
      | .more q => replacement :: decodeFrom (some q) rest
      | .invalid => replacement :: replacement :: decodeFrom none rest

/-- The text of a byte string, with replacement characters where it is none. -/
def decode (bytes : List UInt8) : String := String.ofList (decodeFrom none bytes)

/-- The text of a byte string that is one: its bytes are the given ones. -/
def decode? (bytes : List UInt8) : Option String :=
  let text := decode bytes
  if encode text = bytes then some text else none

end Utf8
end GuestKernel
