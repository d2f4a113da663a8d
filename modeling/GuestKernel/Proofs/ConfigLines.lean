/-
# Written lines are read back

A line gives a name a value, opens a table, or is blank. Each of them is taken off the front of a text as a whole, so a
text made of such lines is read as their statements in order.

| line | statement |
| --- | --- |
| `key = 12` | `assign ["key"] 12` |
| `[a]` | `header ["a"]` |
| `[[a.b]]` | `element ["a", "b"]` |
| blank | none |

Source: specification, 8 and 10.4.
-/

import GuestKernel.Config.Writing
import GuestKernel.Proofs.QuotedText
import GuestKernel.Toml.Statement
import Mathlib.Data.List.TakeDrop
import Mathlib.Data.List.TakeWhile

namespace GuestKernel
namespace Toml

/-! ## Words -/

theorem ne_of_kind {p : Char → Bool} {c d : Char} (hc : p c = true) (hd : p d = false) : c ≠ d :=
  ne_of_apply_ne p (by simp [hc, hd])

theorem span_append_cons {p : Char → Bool} {word rest : List Char} {c : Char} (hword : ∀ d ∈ word, p d = true)
    (hc : p c = false) : (word ++ c :: rest).span p = (word, c :: rest) := by
  rw [List.span_eq_takeWhile_dropWhile, List.takeWhile_append_of_pos hword, List.dropWhile_append_of_pos hword]
  simp [hc]

theorem readScalar_append {word rest : List Char} (hword : ∀ c ∈ word, isWordChar c = true) :
    readScalar (word ++ '\n' :: rest) = (scalar? word).map fun v => (v, '\n' :: rest) := by
  rw [readScalar, readWord, span_append_cons hword (by decide)]
  rfl

/-- A text of digits only. -/
def AllDigits (text : List Char) : Prop := ∀ c ∈ text, c.isDigit = true

theorem isDigit_iff {c : Char} : c.isDigit = true ↔ 48 ≤ c.toNat ∧ c.toNat ≤ 57 := by
  simp only [Char.isDigit, Bool.and_eq_true, decide_eq_true_eq, ge_iff_le, UInt32.le_iff_toNat_le]
  rfl

theorem hexValue?_of_isDigit {c : Char} (h : c.isDigit = true) : hexValue? c = some (c.toNat - '0'.toNat) :=
  if_pos (isDigit_iff.1 h)

namespace AllDigits

variable {text : List Char}

theorem ne_cons (h : AllDigits text) {c : Char} (hc : c.isDigit = false) (rest : List Char) : text ≠ c :: rest := by
  rintro rfl
  exact absurd (h c List.mem_cons_self) (by simp [hc])

theorem ungroup? (h : AllDigits text) (hne : text ≠ []) : Toml.ungroup? Char.isDigit text = some text := by
  induction text with
  | nil => exact absurd rfl hne
  | cons c rest ih =>
    have hc := h c List.mem_cons_self
    have hrest : AllDigits rest := fun d hd => h d (List.mem_cons_of_mem c hd)
    cases rest with
    | nil => simp [Toml.ungroup?, hc]
    | cons d rest =>
      have hd : d ≠ '_' := by
        rintro rfl
        exact absurd (hrest '_' List.mem_cons_self) (by decide)
      rw [Toml.ungroup?, if_pos hc, ih hrest (by simp)]
      · rfl
      · simp
      · exact fun _ e => hd (List.cons.inj e).1

theorem numberOf (h : AllDigits text) : Toml.numberOf 10 text = Nat.ofDigitChars 10 text 0 := by
  have hfold (n : Nat) : text.foldl (fun n c => n * 10 + (hexValue? c).getD 0) n = Nat.ofDigitChars 10 text n := by
    induction text generalizing n with
    | nil => rfl
    | cons c rest ih =>
      have hrest : AllDigits rest := fun d hd => h d (List.mem_cons_of_mem c hd)
      rw [List.foldl_cons, hexValue?_of_isDigit (h c List.mem_cons_self), ih hrest, Nat.mul_comm n]
      rfl
  exact hfold 0

theorem splitSign (h : AllDigits text) : Toml.splitSign text = (false, text) := by
  unfold Toml.splitSign
  split
  · exact absurd (h '+' List.mem_cons_self) (by decide)
  · exact absurd (h '-' List.mem_cons_self) (by decide)
  · rfl

theorem splitAt? {p : Char → Bool} (h : AllDigits text) (hp : ∀ c, c.isDigit = true → p c = false) :
    Toml.splitAt? p text = (text, none) := by
  have hall : ∀ c ∈ text, (!p c) = true := fun c hc => by rw [hp c (h c hc)]; rfl
  rw [Toml.splitAt?, List.takeWhile_eq_self_iff.2 hall, List.dropWhile_eq_nil_iff.2 hall]

theorem isDateTime (h : AllDigits text) : Toml.isDateTime text = false := by
  have htime : afterTime? text = none := by
    unfold afterTime?
    split
    · exact absurd (h ':' (by simp)) (by decide)
    · rfl
  have hdate : isDate (text.take 10) = false := by
    unfold isDate
    split
    · next heq =>
      have hmem : '-' ∈ text.take 10 := by simp [heq]
      exact absurd (h '-' (List.mem_of_mem_take hmem)) (by decide)
    · rfl
  simp [Toml.isDateTime, htime, hdate]

theorem isFloat (h : AllDigits text) : Toml.isFloat text = false := by
  have hexp := h.splitAt? (p := fun c => c = 'e' || c = 'E') fun c hc => by
    simp only [Bool.or_eq_false_iff, decide_eq_false_iff_not]
    constructor <;> rintro rfl <;> exact absurd hc (by decide)
  have hpoint := h.splitAt? (p := fun c => c = '.') fun c hc => by
    simp only [decide_eq_false_iff_not]
    rintro rfl
    exact absurd hc (by decide)
  have hwords : ¬ (decide (text = ['i', 'n', 'f']) || decide (text = ['n', 'a', 'n'])) = true := by
    simp [h.ne_cons (by decide : 'i'.isDigit = false), h.ne_cons (by decide : 'n'.isDigit = false)]
  -- There is neither an exponent nor a fraction, whatever the part before them is.
  unfold Toml.isFloat
  rw [h.splitSign]
  dsimp only
  rw [if_neg hwords, hexp]
  dsimp only
  rw [hpoint]
  dsimp only
  split <;> rfl

/-- A word of digits is read as a decimal number. -/
theorem integer? (h : AllDigits text) :
    Toml.integer? text = (decimalDigits? text).bind fun digits => inRange? (Toml.numberOf 10 digits) := by
  unfold Toml.integer?
  split
  · exact absurd (h 'x' (by simp)) (by decide)
  · exact absurd (h 'o' (by simp)) (by decide)
  · exact absurd (h 'b' (by simp)) (by decide)
  · rw [h.splitSign]
    rfl

end AllDigits

/-! ## Numbers -/

theorem allDigits_toDigits (n : Nat) : AllDigits (Nat.toDigits 10 n) := fun _ hc =>
  Nat.isDigit_of_mem_toDigits (by decide) (by decide) hc

/-- No leading zeros. -/
theorem head?_toDigits {n : Nat} (h : 0 < n) : (Nat.toDigits 10 n).head? ≠ some '0' := by
  induction n using Nat.strongRecOn with
  | ind n ih =>
    by_cases hn : n < 10
    · have hdigit : ∀ d < 10, 0 < d → Nat.digitChar d ≠ '0' := by decide
      rw [Nat.toDigits_of_lt_base hn]
      simpa using hdigit n hn h
    · have hsome : (Nat.toDigits 10 (n / 10)).head?.isSome := by simp [Nat.toDigits_ne_nil]
      rw [Nat.toDigits_of_base_le (by decide) (by omega), List.head?_append, Option.or_of_isSome hsome]
      exact ih (n / 10) (by omega) (by omega)

/-- Decimal digits are read as written. -/
theorem decimalDigits?_toDigits (n : Nat) : decimalDigits? (Nat.toDigits 10 n) = some (Nat.toDigits 10 n) := by
  rw [decimalDigits?, (allDigits_toDigits n).ungroup? Nat.toDigits_ne_nil]
  rcases Nat.eq_zero_or_pos n with rfl | hn
  · rfl
  · have hhead := head?_toDigits hn
    split
    · next h => rw [← h]
    · next h => simp [Option.some.inj h] at hhead
    · rfl

theorem inRange?_natCast {n : Nat} (h : n < 0x8000000000000000) : inRange? (n : Int) = some (n : Int) := by
  rw [inRange?, if_pos (by omega)]

/-- A number in decimal digits is read back. -/
theorem integer?_toDigits {n : Nat} (h : n < 0x8000000000000000) :
    integer? (Nat.toDigits 10 n) = some (n : Int) := by
  have hnumber : numberOf 10 (Nat.toDigits 10 n) = n :=
    (allDigits_toDigits n).numberOf.trans (Nat.ofDigitChars_toDigits (by decide) (by decide))
  rw [(allDigits_toDigits n).integer?, decimalDigits?_toDigits, Option.bind_some, hnumber, inRange?_natCast h]

/-- A number in decimal digits is read as an integer. -/
theorem scalar?_toDigits {n : Nat} (h : n < 0x8000000000000000) :
    scalar? (Nat.toDigits 10 n) = some (.integer n) := by
  have hdigits := allDigits_toDigits n
  rw [scalar?, if_neg (hdigits.ne_cons (by decide) _), if_neg (hdigits.ne_cons (by decide) _), hdigits.isDateTime,
    hdigits.isFloat, integer?_toDigits h]
  rfl

/-! ## Values -/

/-- A text that stands for a value at the end of a line. It does not begin with a blank. -/
structure Written (text : List Char) (v : Value) : Prop where
  starts : ∃ c cs, text = c :: cs ∧ isBlank c = false
  reads : ∀ rest, readValue depthLimit (text ++ '\n' :: rest) = some (v, '\n' :: rest)

theorem readValue_word {c : Char} {word rest : List Char} (depth : Nat) (hc : isWordChar c = true) :
    readValue depth (c :: word ++ rest) = readScalar (c :: word ++ rest) := by
  unfold readValue
  split
  · next heq => exact absurd (List.cons.inj heq).1 (ne_of_kind hc (by decide))
  · next heq => exact absurd (List.cons.inj heq).1 (ne_of_kind hc (by decide))
  · next heq => exact absurd (List.cons.inj heq).1 (ne_of_kind hc (by decide))
  · next heq => exact absurd (List.cons.inj heq).1 (ne_of_kind hc (by decide))
  · rfl

/-- A word that stands for a value. -/
theorem Written.word {word : List Char} {v : Value} (hne : word ≠ []) (hword : word.all isWordChar = true)
    (hv : scalar? word = some v) : Written word v := by
  replace hword := List.all_eq_true.1 hword
  cases word with
  | nil => exact absurd rfl hne
  | cons c cs =>
    have hc := hword c List.mem_cons_self
    refine ⟨⟨c, cs, rfl, ?_⟩, fun rest => ?_⟩
    · simp [isBlank, ne_of_kind hc (by decide : isWordChar ' ' = false),
        ne_of_kind hc (by decide : isWordChar '\t' = false)]
    · rw [readValue_word _ hc, readScalar_append hword, hv]
      rfl

theorem written_writeWord (w : UInt32) : Written (writeWord w) (.integer w.toNat) := by
  refine .word Nat.toDigits_ne_nil (List.all_eq_true.2 fun c hc => ?_) (scalar?_toDigits ?_)
  · simp [isWordChar, Char.isAlphanum, allDigits_toDigits _ c hc]
  · have := w.toNat_lt
    omega

theorem written_writeFlag (b : Bool) : Written (writeFlag b) (.boolean b) := by
  cases b <;> exact .word (by decide) (by decide) rfl

/-- A quoted string is read back. -/
theorem written_writeQuoted (s : String) : Written (writeQuoted s) (.string s) := by
  obtain ⟨mark, body, hs, hmark⟩ := writeQuoted_eq_cons s
  refine ⟨⟨mark, body, hs, by rcases hmark with rfl | rfl <;> decide⟩, fun rest => ?_⟩
  have hread := readQuoted_writeQuoted s rest
  rw [hs] at hread ⊢
  rcases hmark with rfl | rfl <;> rw [List.cons_append] at hread ⊢ <;> rw [readValue, hread] <;> rfl

theorem written_empty : Written ['[', ']'] (.array []) :=
  ⟨⟨'[', [']'], rfl, by decide⟩, fun _ => rfl⟩

/-! ## Keys -/

/-- A name that needs no quotes. -/
def Bare (key : String) : Prop := (!key.toList.isEmpty && key.toList.all isKeyChar) = true

instance (key : String) : Decidable (Bare key) := inferInstanceAs (Decidable (_ = true))

theorem Bare.all {key : String} (h : Bare key) : ∀ c ∈ key.toList, isKeyChar c = true :=
  List.all_eq_true.1 (Bool.and_eq_true_iff.1 h).2

theorem Bare.eq_cons {key : String} (h : Bare key) : ∃ c cs, key.toList = c :: cs ∧ isKeyChar c = true := by
  have hall := h.all
  cases hkey : key.toList with
  | nil => simp [Bare, hkey] at h
  | cons c cs => exact ⟨c, cs, rfl, hall c (by simp [hkey])⟩

theorem skipBlanks_cons {c : Char} {rest : List Char} (h : isBlank c = false) : skipBlanks (c :: rest) = c :: rest := by
  simp [skipBlanks, h]

theorem isBlank_of_isKeyChar {c : Char} (h : isKeyChar c = true) : isBlank c = false := by
  simp [isBlank, ne_of_kind h (by decide : isKeyChar ' ' = false), ne_of_kind h (by decide : isKeyChar '\t' = false)]

/-- A bare key ends at the first character that is none of a key. -/
theorem readKeyPart_bare {key : String} (h : Bare key) {c : Char} (hc : isKeyChar c = false) (rest : List Char) :
    readKeyPart (key.toList ++ c :: rest) = some (key, skipBlanks (c :: rest)) := by
  have hspan : (key.toList ++ c :: rest).span isKeyChar = (key.toList, c :: rest) := span_append_cons h.all hc
  obtain ⟨d, ds, hkey, hd⟩ := h.eq_cons
  have hskip : skipBlanks (key.toList ++ c :: rest) = key.toList ++ c :: rest := by
    rw [hkey, List.cons_append, skipBlanks_cons (isBlank_of_isKeyChar hd)]
  have hempty : key.toList.isEmpty = false := by simp [hkey]
  rw [readKeyPart, hskip]
  dsimp only
  split
  · next heq => exact absurd (List.cons.inj (by simpa [hkey] using heq)).1 (ne_of_kind hd (by decide))
  · next heq => exact absurd (List.cons.inj (by simpa [hkey] using heq)).1 (ne_of_kind hd (by decide))
  · rw [hspan]
    simp [hempty]

/-- The last part of a key, with one character that cannot belong to it and maybe blanks after that. -/
theorem readKey_last {key : String} (h : Bare key) {c d : Char} {rest rest' : List Char} (hc : isKeyChar c = false)
    (hrest : skipBlanks (c :: rest) = d :: rest') (hd : d ≠ '.') {limit : Nat} (hlimit : 0 < limit) :
    readKey limit (key.toList ++ c :: rest) = some ([key], d :: rest') := by
  obtain ⟨limit, rfl⟩ := Nat.exists_eq_add_of_le' hlimit
  rw [readKey, readKeyPart_bare h hc, hrest]
  split
  · next heq => cases heq
  · next heq => cases heq; exact absurd rfl hd
  · next heq => cases heq; rfl

/-- A dot goes on with the next part of the key. -/
theorem readKey_dot {key : String} (h : Bare key) {limit : Nat} (hlimit : 0 < limit) (rest : List Char) :
    readKey limit (key.toList ++ '.' :: rest) =
      (readKey (limit - 1) rest).map fun (path, rest) => (key :: path, rest) := by
  obtain ⟨limit, rfl⟩ := Nat.exists_eq_add_of_le' hlimit
  rw [readKey, readKeyPart_bare h (by decide)]
  rfl

theorem Bare.append_ne_bracket {key : String} (h : Bare key) (rest more : List Char) :
    key.toList ++ rest ≠ '[' :: more := by
  obtain ⟨c, cs, hkey, hc⟩ := h.eq_cons
  intro e
  rw [hkey] at e
  exact ne_of_kind hc (by decide : isKeyChar '[' = false) (List.cons.inj e).1

/-! ## Lines -/

/-- A text that is read as one line, with its statement if it has one. -/
structure Line (text : List Char) (statement : Option Statement) : Prop where
  ne_nil : text ≠ []
  reads : ∀ rest, readLine (text ++ rest) = some (statement, rest)

theorem line_blank : Line ['\n'] none := ⟨by simp, fun _ => rfl⟩

/-- A line whose first character says that it holds a statement. -/
theorem Line.of_readStatement {c : Char} {text cs : List Char} {statement : Statement} (htext : text = c :: cs)
    (hblank : isBlank c = false) (hc : ¬ (c = '#' ∨ c = '\n' ∨ c = '\r'))
    (h : ∀ rest, readStatement (text ++ rest) = some (statement, rest)) : Line text (some statement) := by
  subst htext
  refine ⟨by simp, fun rest => ?_⟩
  rw [readLine, List.cons_append, skipBlanks_cons hblank]
  dsimp only
  rw [if_neg hc, ← List.cons_append, h]
  rfl

/-- **A line that gives a name a value is read as that.** -/
theorem Line.assignment {key : String} {text : List Char} {v : Value} (hkey : Bare key) (hv : Written text v) :
    Line (assignmentLine key text) (some (.assign [key] v)) := by
  obtain ⟨c, cs, hcons, hc⟩ := hkey.eq_cons
  have htext : assignmentLine key text = c :: (cs ++ [' ', '=', ' '] ++ text ++ ['\n']) := by
    simp [assignmentLine, hcons]
  have hmark : ¬ (c = '#' ∨ c = '\n' ∨ c = '\r') := by
    rintro (rfl | rfl | rfl) <;> exact absurd hc (by decide)
  refine .of_readStatement htext (isBlank_of_isKeyChar hc) hmark fun rest => ?_
  have hsplit : assignmentLine key text ++ rest = key.toList ++ ' ' :: '=' :: ' ' :: (text ++ '\n' :: rest) := by
    simp [assignmentLine]
  have hvalue : readValue depthLimit (skipBlanks (' ' :: (text ++ '\n' :: rest))) = some (v, '\n' :: rest) := by
    obtain ⟨d, ds, htext, hblank⟩ := hv.starts
    have hskip : skipBlanks (' ' :: (text ++ '\n' :: rest)) = text ++ '\n' :: rest := by
      rw [htext, List.cons_append]
      exact skipBlanks_cons hblank
    rw [hskip, hv.reads]
  rw [hsplit]
  unfold readStatement
  split
  · next heq => exact absurd heq (hkey.append_ne_bracket _ _)
  · next heq => exact absurd heq (hkey.append_ne_bracket _ _)
  · rw [readKey_last hkey (by decide) rfl (by decide) (by decide)]
    simp only [hvalue]
    rfl

/-- A table's header is a line. -/
theorem Line.header {key : String} (hkey : Bare key) : Line (headerLine key) (some (.header [key])) := by
  refine .of_readStatement rfl (by decide) (by decide) fun rest => ?_
  have hsplit : headerLine key ++ rest = '[' :: (key.toList ++ ']' :: '\n' :: rest) := by
    simp [headerLine]
  rw [hsplit, readStatement, readKey_last hkey (by decide) rfl (by decide) (by decide)]
  · rfl
  · exact fun more heq => hkey.append_ne_bracket _ more heq

/-- An array element's header is a line. -/
theorem Line.element {key key' path : String} (hkey : Bare key) (hkey' : Bare key')
    (hpath : path.toList = key.toList ++ '.' :: key'.toList) :
    Line (elementLine path) (some (.element [key, key'])) := by
  refine .of_readStatement rfl (by decide) (by decide) fun rest => ?_
  have hsplit : elementLine path ++ rest =
      '[' :: '[' :: (key.toList ++ '.' :: (key'.toList ++ ']' :: ']' :: '\n' :: rest)) := by
    simp [elementLine, hpath]
  rw [hsplit, readStatement, readKey_dot hkey (by decide), readKey_last hkey' (by decide) rfl (by decide) (by decide)]
  rfl

/-! ## Texts -/

/-- A text that is read as statements in front of any lines: those of the text come first. -/
def Reads (text : List Char) (statements : List Statement) : Prop :=
  ∀ rest more, (∀ fuel, rest.length ≤ fuel → readLines fuel rest = some more) →
    ∀ fuel, (text ++ rest).length ≤ fuel → readLines fuel (text ++ rest) = some (statements ++ more)

theorem readLines_cons (fuel : Nat) (c : Char) (rest : List Char) :
    readLines (fuel + 1) (c :: rest) =
      match readLine (c :: rest) with
      | none => none
      | some (none, rest) => readLines fuel rest
      | some (some s, rest) => (readLines fuel rest).map (s :: ·) := rfl

namespace Reads

theorem nil : Reads [] [] := fun _ _ h => h

/-- Texts are read one after the other. -/
theorem append {text text' : List Char} {statements statements' : List Statement} (h : Reads text statements)
    (h' : Reads text' statements') : Reads (text ++ text') (statements ++ statements') := by
  intro rest more hrest
  rw [List.append_assoc, List.append_assoc]
  exact h _ _ (h' rest more hrest)

/-- A line is read as its statement. -/
theorem line {text : List Char} {statement : Option Statement} (h : Line text statement) :
    Reads text statement.toList := by
  intro rest more hrest fuel hfuel
  obtain ⟨c, cs, htext⟩ := List.exists_cons_of_ne_nil h.ne_nil
  have hlength : rest.length + 1 ≤ fuel := by
    simp only [htext, List.length_append, List.length_cons] at hfuel
    omega
  obtain ⟨fuel, rfl⟩ := Nat.exists_eq_add_of_le' (Nat.le_trans (Nat.le_add_left 1 _) hlength)
  have hmore := hrest fuel (by omega)
  have hread := h.reads rest
  rw [htext, List.cons_append] at hread ⊢
  rw [readLines_cons, hread]
  cases statement with
  | none => exact hmore
  | some s =>
    dsimp only
    rw [hmore]
    rfl

theorem flatMap {α : Type} {texts : α → List Char} {statements : α → List Statement}
    (h : ∀ a, Reads (texts a) (statements a)) (items : List α) :
    Reads (items.flatMap texts) (items.flatMap statements) := by
  induction items with
  | nil => exact nil
  | cons a items ih => exact (h a).append ih

/-- **A whole text is read as its statements**, unless a byte order mark begins it. -/
theorem statements? {text : List Char} {statements : List Statement} (h : Reads text statements)
    (hmark : text.head? ≠ some '\ufeff') : Toml.statements? text = some statements := by
  have hall := h [] [] (fun fuel _ => by cases fuel <;> rfl) text.length (by simp)
  rw [List.append_nil, List.append_nil] at hall
  unfold Toml.statements?
  split
  · exact absurd rfl hmark
  · exact hall

end Reads

end Toml
end GuestKernel
