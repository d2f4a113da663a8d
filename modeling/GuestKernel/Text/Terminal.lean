/-
# Text that a terminal shows as it is

A name may hold characters that a terminal obeys: they move the cursor, ring the bell or begin a command. In a log line
each of them is written as an escape; tabs, line breaks and all other characters stay.

| character | written as |
| --- | --- |
| `07`, `08`, `0C`, `1B`, `7F` | `\x` and two digits |
| `80`-`9F` | `\u` and the digits in braces |

Source: specification, 10.2.
-/

import GuestKernel.Word

namespace GuestKernel
namespace Terminal

/-- The ASCII characters that a terminal obeys: bell, backspace, form feed, escape and delete. -/
def isCommand (c : Char) : Bool := [0x07, 0x08, 0x0C, 0x1B, 0x7F].contains c.toNat

/-- The control characters of eight bits, each of which stands for an escape sequence. -/
def isWideCommand (c : Char) : Bool := 0x80 ≤ c.toNat && c.toNat ≤ 0x9F

/-- A character that a terminal shows and does not obey. -/
def isInert (c : Char) : Bool := !isCommand c && !isWideCommand c

/-- A character as a log line shows it. -/
def shown (c : Char) : List Char :=
  if isCommand c then ['\\', 'x'] ++ (hexPad 2 c.toNat).toList
  else if isWideCommand c then ['\\', 'u', '\x7b'] ++ (hex c.toNat).toList ++ ['\x7d']
  else [c]

/-- A text as a log line shows it. -/
def plain (s : String) : String := String.ofList (s.toList.flatMap shown)

theorem all_isInert_shown (c : Char) : (shown c).all isInert = true := by
  unfold shown
  split
  · rename_i hc
    simp only [isCommand, List.contains_eq_mem, List.mem_cons, List.not_mem_nil, or_false,
      decide_eq_true_eq] at hc
    rcases hc with hc | hc | hc | hc | hc <;> rw [hc] <;> decide
  · rename_i hc
    split
    · rename_i hw
      have bounds : 0x80 ≤ c.toNat ∧ c.toNat ≤ 0x9F := by simpa [isWideCommand] using hw
      have all : (List.range 0x20).all (fun i =>
          (['\\', 'u', '\x7b'] ++ (hex (0x80 + i)).toList ++ ['\x7d']).all isInert) = true := by
        decide +kernel
      have at_c := List.all_eq_true.1 all (c.toNat - 0x80) (List.mem_range.2 (by omega))
      rwa [show 0x80 + (c.toNat - 0x80) = c.toNat by omega] at at_c
    · rename_i hw
      simp [isInert, hc, hw]

/-- A log line holds no character that a terminal obeys. -/
theorem all_isInert_plain (s : String) : (plain s).toList.all isInert = true := by
  rw [plain, String.toList_ofList, List.all_flatMap]
  exact List.all_eq_true.2 fun c _ => all_isInert_shown c

end Terminal
end GuestKernel
