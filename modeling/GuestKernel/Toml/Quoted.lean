/-
# Quoted texts

| form | escapes | line breaks |
| --- | --- | --- |
| `"basic"` | yes | no |
| `'literal'` | no | no |
| three quotes, basic | yes | yes |
| three apostrophes, literal | no | yes |

A form with three marks drops a line break right after the opening marks, holds up to two marks in a row, and may end
in two more than the closing three. Written texts take the first form of the table that needs no escapes; if none does,
escapes are used, in several lines if there are line breaks.

Source: specification, 10.4.
-/

import GuestKernel.Toml.Value
import GuestKernel.Word

namespace GuestKernel
namespace Toml

/-- A form of quoted text. -/
structure QuoteForm where
  mark : Char
  escapes : Bool
  multiline : Bool
deriving DecidableEq

namespace QuoteForm

def basic : QuoteForm := ⟨'"', true, false⟩
def literal : QuoteForm := ⟨'\'', false, false⟩
def longBasic : QuoteForm := ⟨'"', true, true⟩
def longLiteral : QuoteForm := ⟨'\'', false, true⟩

end QuoteForm

/-! ## Reading -/

/-- The value of a hexadecimal digit. -/
def hexValue? (c : Char) : Option Nat :=
  if '0' ≤ c ∧ c ≤ '9' then some (c.toNat - '0'.toNat)
  else if 'a' ≤ c ∧ c ≤ 'f' then some (c.toNat - 'a'.toNat + 10)
  else if 'A' ≤ c ∧ c ≤ 'F' then some (c.toNat - 'A'.toNat + 10)
  else none

/-- The number that hexadecimal digits stand for, after the ones already read. -/
def hexNumber? : (soFar : Nat) → List Char → Option Nat
  | n, [] => some n
  | n, c :: rest =>
    match hexValue? c with
    | some d => hexNumber? (n * 16 + d) rest
    | none => none

/-- The character whose code is written in exactly `width` hexadecimal digits. -/
def charOfHex? (width : Nat) (text : List Char) : Option Char :=
  if (text.take width).length = width then
    match hexNumber? 0 (text.take width) with
    | some n => if h : n.isValidChar then some (Char.ofNatAux n h) else none
    | none => none
  else none

/-- How many characters of blanks and line breaks stand at the start. -/
def spaceLength : List Char → Nat
  | '\r' :: '\n' :: rest => spaceLength rest + 2
  | c :: rest => if isBlank c || c = '\n' then spaceLength rest + 1 else 0
  | [] => 0

/-- What an escape stands for, and how many characters after the backslash it takes. A backslash at the end of a line
takes all space up to the next text. -/
def escape? (multiline : Bool) (text : List Char) : Option (List Char × Nat) :=
  match text with
  | 'b' :: _ => some (['\x08'], 1)
  | 't' :: _ => some (['\t'], 1)
  | 'n' :: _ => some (['\n'], 1)
  | 'f' :: _ => some (['\x0c'], 1)
  | 'r' :: _ => some (['\r'], 1)
  | '"' :: _ => some (['"'], 1)
  | '\\' :: _ => some (['\\'], 1)
  | 'u' :: digits => (charOfHex? 4 digits).map fun c => ([c], 5)
  | 'U' :: digits => (charOfHex? 8 digits).map fun c => ([c], 9)
  | _ =>
    if multiline && (afterBreak? (skipBlanks text)).isSome then some ([], spaceLength text) else none

/-- Reads up to the closing marks, after `skip` characters that an escape has taken. -/
def readBody (form : QuoteForm) : (skip : Nat) → Reader (List Char)
  | _, [] => none
  | n + 1, _ :: rest => readBody form n rest
  | 0, c :: rest =>
    if c = form.mark then
      if form.multiline then
        let more := (rest.takeWhile (· = form.mark)).length
        if more < 2 then (readBody form 0 rest).map fun (body, rest) => (c :: body, rest)
        else some (List.replicate (min (more - 2) 2) c, rest.drop (min more 4))
      else some ([], rest)
    else if c = '\\' && form.escapes then
      match escape? form.multiline rest with
      | some (out, used) => (readBody form used rest).map fun (body, rest) => (out ++ body, rest)
      | none => none
    else if c = '\n' && form.multiline then
      (readBody form 0 rest).map fun (body, rest) => (c :: body, rest)
    else if c = '\r' && form.multiline then
      if rest.head? = some '\n' then readBody form 0 rest else none
    else if isTextual c then
      (readBody form 0 rest).map fun (body, rest) => (c :: body, rest)
    else none

/-- The form and the text after the opening marks. -/
def openQuote? : List Char → Option (QuoteForm × List Char)
  | '"' :: '"' :: '"' :: rest => some (.longBasic, (afterBreak? rest).getD rest)
  | '"' :: rest => some (.basic, rest)
  | '\'' :: '\'' :: '\'' :: rest => some (.longLiteral, (afterBreak? rest).getD rest)
  | '\'' :: rest => some (.literal, rest)
  | _ => none

/-- Reads a quoted text of any form. -/
def readQuoted (text : List Char) : Option (String × List Char) :=
  match openQuote? text with
  | some (form, rest) => (readBody form 0 rest).map fun (body, rest) => (String.ofList body, rest)
  | none => none

/-- Reads a quoted text of one line, as keys may be. -/
def readQuotedLine (text : List Char) : Option (String × List Char) :=
  match text with
  | '"' :: rest => (readBody .basic 0 rest).map fun (body, rest) => (String.ofList body, rest)
  | '\'' :: rest => (readBody .literal 0 rest).map fun (body, rest) => (String.ofList body, rest)
  | _ => none

/-! ## Writing -/

/-- A control character that no form holds as it is. -/
def needsCode (c : Char) : Bool := (c < ' ' && c != '\t' && c != '\n') || c = '\x7f'

/-- The length of the longest run of a character. -/
def longestRun (c : Char) (text : List Char) : Nat :=
  (text.foldl (fun (longest, run) d => if d = c then (max longest (run + 1), run + 1) else (longest, 0))
    (0, 0)).1

/-- Whether a form holds a text without escapes. -/
def QuoteForm.suits (form : QuoteForm) (text : List Char) : Bool :=
  !text.any needsCode && !(form.escapes && text.contains '\\') &&
    (form.multiline || !text.contains '\n') && longestRun form.mark text ≤ (if form.multiline then 2 else 0)

/-- The form in which a text is written. -/
def chooseForm (text : List Char) : QuoteForm :=
  match [QuoteForm.basic, .literal, .longBasic, .longLiteral].find? (·.suits text) with
  | some form => form
  | none => if text.contains '\n' then .longBasic else .basic

/-- Upper-case hexadecimal digits, at least four. -/
def codeDigits (c : Char) : List Char := (hexPad 4 c.toNat).toList.map Char.toUpper

/-- A character of a form with escapes. -/
def escaped (form : QuoteForm) (c : Char) : List Char :=
  if c = '\x08' then ['\\', 'b']
  else if c = '\t' then ['\\', 't']
  else if c = '\n' then if form.multiline then ['\n'] else ['\\', 'n']
  else if c = '\x0c' then ['\\', 'f']
  else if c = '\r' then ['\\', 'r']
  else if c = '\\' then ['\\', '\\']
  else if needsCode c then ['\\', 'u'] ++ codeDigits c
  else [c]

/-- The body of a form with escapes; after `run` quotes in a row one more may have to be escaped. -/
def escapeBody (form : QuoteForm) : (run : Nat) → List Char → List Char
  | _, [] => []
  | run, c :: rest =>
    if c = '"' then
      if run < (if form.multiline then 2 else 0) then c :: escapeBody form (run + 1) rest
      else '\\' :: c :: escapeBody form 0 rest
    else escaped form c ++ escapeBody form 0 rest

/-- A text in a form; one with line breaks starts on a line of its own. -/
def writeForm (form : QuoteForm) (text : List Char) : List Char :=
  let marks := List.replicate (if form.multiline then 3 else 1) form.mark
  let body := if form.escapes then escapeBody form 0 text else text
  marks ++ (if form.multiline && text.contains '\n' then ['\n'] else []) ++ body ++ marks

/-- A text in the form that suits it best. -/
def writeQuoted (s : String) : List Char := writeForm (chooseForm s.toList) s.toList

end Toml
end GuestKernel
