/-
# Numbers, truth values and points in time

A value that is neither quoted nor in brackets is a word: an unbroken run of letters, digits and `+-_.:`. One blank may
join a date and a time.

| word | rule |
| --- | --- |
| integer | decimal without leading zeros, or `0x`, `0o`, `0b`; at most 64 bits signed |
| float | a fraction, an exponent or both; `inf`, `nan`; too large a number is refused |
| date, time | digits of fixed width in range, months with their days |

Digits may be grouped by single underscores.

Source: specification, 10.4.
-/

import GuestKernel.Toml.Quoted

namespace GuestKernel
namespace Toml

/-- Characters of a word. -/
def isWordChar (c : Char) : Bool :=
  c.isAlphanum || c = '+' || c = '-' || c = '_' || c = '.' || c = ':'

/-- Digits without the underscores that group them; an underscore stands between two digits. -/
def ungroup? (isDigit : Char → Bool) : List Char → Option (List Char)
  | [] => none
  | [c] => if isDigit c then some [c] else none
  | c :: '_' :: rest => if isDigit c then (ungroup? isDigit rest).map (c :: ·) else none
  | c :: rest => if isDigit c then (ungroup? isDigit rest).map (c :: ·) else none

/-- The number that digits of a base stand for. -/
def numberOf (base : Nat) (digits : List Char) : Nat :=
  digits.foldl (fun n c => n * base + (hexValue? c).getD 0) 0

/-- The digits of a decimal number, which has no leading zeros. -/
def decimalDigits? (text : List Char) : Option (List Char) :=
  match ungroup? Char.isDigit text with
  | some ['0'] => some ['0']
  | some ('0' :: _) => none
  | digits => digits

/-- A sign, if there is one, and the rest: whether it is a minus. -/
def splitSign : List Char → Bool × List Char
  | '+' :: rest => (false, rest)
  | '-' :: rest => (true, rest)
  | rest => (false, rest)

/-- Integers have 64 bits. -/
def inRange? (i : Int) : Option Int :=
  if -0x8000000000000000 ≤ i ∧ i < 0x8000000000000000 then some i else none

/-- The integer that a word stands for. -/
def integer? (text : List Char) : Option Int :=
  let based (base : Nat) (isDigit : Char → Bool) (digits : List Char) : Option Int :=
    (ungroup? isDigit digits).bind fun digits => inRange? (numberOf base digits)
  match text with
  | '0' :: 'x' :: digits => based 16 (fun c => (hexValue? c).isSome) digits
  | '0' :: 'o' :: digits => based 8 (fun c => '0' ≤ c && c ≤ '7') digits
  | '0' :: 'b' :: digits => based 2 (fun c => c = '0' || c = '1') digits
  | _ =>
    let (minus, digits) := splitSign text
    (decimalDigits? digits).bind fun digits =>
      let n : Int := numberOf 10 digits
      inRange? (if minus then -n else n)

/-- The text before the first character of a kind, and the text after that character. -/
def splitAt? (p : Char → Bool) (text : List Char) : List Char × Option (List Char) :=
  (text.takeWhile (!p ·), match text.dropWhile (!p ·) with
    | [] => none
    | _ :: rest => some rest)

/-- The least number that a 64-bit float rounds up to infinity. -/
def floatLimit : Nat := 1 <<< 1024 - 1 <<< 970

/-- Whether `digits * 10 ^ exponent` is too large for a 64-bit float. -/
def overflows (digits : Nat) (exponent : Int) : Bool :=
  if digits = 0 then false
  else
    let size := (Nat.toDigits 10 digits).length + exponent
    if size < 300 then false
    else if 320 < size then true
    else if 0 ≤ exponent then floatLimit ≤ digits * Nat.pow 10 exponent.toNat
    else floatLimit * Nat.pow 10 (-exponent).toNat ≤ digits

/-- Whether a word is a number with a fraction or an exponent. -/
def isFloat (text : List Char) : Bool :=
  let (minus, unsigned) := splitSign text
  if unsigned = ['i', 'n', 'f'] || unsigned = ['n', 'a', 'n'] then true
  else
    let (mantissa, exponent?) := splitAt? (fun c => c = 'e' || c = 'E') unsigned
    let (whole, fraction?) := splitAt? (· = '.') mantissa
    let digitsOf (part : Option (List Char)) : Option (List Char) :=
      match part with
      | none => some []
      | some digits => ungroup? Char.isDigit digits
    let (small, exponentDigits) := splitSign (exponent?.getD [])
    match decimalDigits? whole, digitsOf fraction?, digitsOf (exponent?.map fun _ => exponentDigits) with
    | some whole, some fraction, some exponent =>
      let scale : Int := numberOf 10 exponent
      let shift := (if small then -scale else scale) - fraction.length
      (fraction?.isSome || exponent?.isSome) && (minus || !overflows (numberOf 10 (whole ++ fraction)) shift)
    | _, _, _ => false

/-- The number written in exactly the given digits, if it lies in a range. -/
def fixedNumber? (low high : Nat) (digits : List Char) : Option Nat :=
  if digits.all Char.isDigit && low ≤ numberOf 10 digits && numberOf 10 digits ≤ high then
    some (numberOf 10 digits)
  else none

/-- The days of a month. -/
def daysOf (year month : Nat) : Nat :=
  if month = 2 then
    if year % 4 = 0 ∧ (year % 100 ≠ 0 ∨ year % 400 = 0) then 29 else 28
  else if month = 4 ∨ month = 6 ∨ month = 9 ∨ month = 11 then 30
  else 31

/-- Whether ten characters are a date. -/
def isDate : List Char → Bool
  | [y1, y2, y3, y4, '-', m1, m2, '-', d1, d2] =>
    match fixedNumber? 0 9999 [y1, y2, y3, y4], fixedNumber? 1 12 [m1, m2], fixedNumber? 1 31 [d1, d2] with
    | some year, some month, some day => day ≤ daysOf year month
    | _, _, _ => false
  | _ => false

/-- The text after a time of day. -/
def afterTime? : List Char → Option (List Char)
  | h1 :: h2 :: ':' :: m1 :: m2 :: ':' :: s1 :: s2 :: rest =>
    match fixedNumber? 0 23 [h1, h2], fixedNumber? 0 59 [m1, m2], fixedNumber? 0 60 [s1, s2] with
    | some _, some _, some _ =>
      match rest with
      | '.' :: fraction =>
        if (fraction.head?.map Char.isDigit).getD false then some (fraction.dropWhile Char.isDigit) else some rest
      | _ => some rest
    | _, _, _ => none
  | _ => none

/-- Whether a text is a difference from universal time, or empty. -/
def isOffset : List Char → Bool
  | [] => true
  | ['Z'] => true
  | ['z'] => true
  | [sign, h1, h2, ':', m1, m2] =>
    (sign = '+' || sign = '-') && (fixedNumber? 0 23 [h1, h2]).isSome && (fixedNumber? 0 59 [m1, m2]).isSome
  | _ => false

/-- Whether a text is a date, a time, or both with an offset. -/
def isDateTime (text : List Char) : Bool :=
  if afterTime? text = some [] then true
  else if isDate (text.take 10) then
    match text.drop 10 with
    | [] => true
    | c :: rest =>
      (c = 'T' || c = 't' || c = ' ') &&
        match afterTime? rest with
        | some rest => isOffset rest
        | none => false
  else false

/-- The value of a word. -/
def scalar? (text : List Char) : Option Value :=
  if text = ['t', 'r', 'u', 'e'] then some (.boolean true)
  else if text = ['f', 'a', 'l', 's', 'e'] then some (.boolean false)
  else if isDateTime text then some (.dateTime (String.ofList text))
  else if isFloat text then some (.float (String.ofList text))
  else (integer? text).map .integer

/-- Reads a word; a date and a time are joined by one blank. -/
def readWord (text : List Char) : List Char × List Char :=
  let (word, rest) := text.span isWordChar
  match rest with
  | ' ' :: c :: more =>
    if isDate word && c.isDigit then
      let (time, rest) := (c :: more).span isWordChar
      (word ++ ' ' :: time, rest)
    else (word, rest)
  | _ => (word, rest)

/-- Reads a value that is neither quoted nor in brackets. -/
def readScalar (text : List Char) : Option (Value × List Char) :=
  let (word, rest) := readWord text
  (scalar? word).map fun v => (v, rest)

end Toml
end GuestKernel
