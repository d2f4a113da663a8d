/-
# Values of a configuration text

A text in the TOML format stands for a table of named values. How a table was written decides how later lines may
extend it, so tables keep their origin.

| origin | written as | later lines may |
| --- | --- | --- |
| `header` | `[a]` | add values below the header only |
| `implied` | the `a` of `[a.b]` | give it a header once |
| `dotted` | the `a` of `a.b = 1` | add dotted keys, or tables below it by header |
| `inline` | braces | not extend it |

Source: specification, 10.4.
-/

namespace GuestKernel
namespace Toml

/-- How a table was written. -/
inductive Origin where
  | header
  | implied
  | dotted
  | inline
deriving DecidableEq

/-- A value. Numbers with a fraction and points in time are kept as they were written. -/
inductive Value where
  | string (s : String)
  | integer (i : Int)
  | float (text : String)
  | boolean (b : Bool)
  | dateTime (text : String)
  | array (items : List Value)
  | table (origin : Origin) (fields : List (String × Value))
  /-- Tables written one after another under `[[a]]`. -/
  | tables (elements : List (List (String × Value)))

/-- Named values in the order they were first written. -/
abbrev Fields := List (String × Value)

namespace Fields

/-- The value of a name. -/
def get? (key : String) : Fields → Option Value
  | [] => none
  | (k, v) :: rest => if k = key then some v else get? key rest

/-- Gives a name another value; a new name goes to the end. -/
def set (key : String) (value : Value) : Fields → Fields
  | [] => [(key, value)]
  | (k, v) :: rest => if k = key then (key, value) :: rest else (k, v) :: set key value rest

end Fields

/-- A reader: what was read, and the rest of the text. -/
abbrev Reader (α : Type) := List Char → Option (α × List Char)

/-- Blanks within a line. -/
def isBlank (c : Char) : Bool := c = ' ' || c = '\t'

/-- Characters that may stand in comments and quoted texts: all but control characters, tabs excepted. -/
def isTextual (c : Char) : Bool := c = '\t' || (' ' ≤ c && c ≤ '~') || '\u0080' ≤ c

/-- The text after its leading blanks. -/
def skipBlanks (text : List Char) : List Char := text.dropWhile isBlank

/-- The text after a line break at its start. -/
def afterBreak? : List Char → Option (List Char)
  | '\n' :: rest => some rest
  | '\r' :: '\n' :: rest => some rest
  | _ => none

/-- The text after blanks, a comment and the end of the line, all but the last optional. -/
def afterLine? (text : List Char) : Option (List Char) :=
  let rest := match skipBlanks text with
    | '#' :: comment => comment.dropWhile isTextual
    | rest => rest
  match rest with
  | [] => some []
  | rest => afterBreak? rest

/-- The text after blanks, comments and line breaks, as they may stand between the items of an array. -/
def skipSpace : (inComment : Bool) → List Char → Option (List Char)
  | true, [] => none
  | false, [] => some []
  | _, '\n' :: rest => skipSpace false rest
  | _, '\r' :: '\n' :: rest => skipSpace false rest
  | true, c :: rest => if isTextual c then skipSpace true rest else none
  | false, '#' :: rest => skipSpace true rest
  | false, c :: rest => if isBlank c then skipSpace false rest else some (c :: rest)

end Toml
end GuestKernel
