/-
# Quoted texts are read back

The body of a quoted text is spelled character by character: a mark stands for itself while the form allows one more in
a row, and every other character is spelled by its own piece. Reading takes a spelled body apart again.

| form | marks in a row | pieces |
| --- | ---: | --- |
| basic | 0 | escapes, or the character |
| literal | 0 | the character |
| three quotes, basic | 2 | escapes, or the character |
| three apostrophes, literal | 2 | the character |

Marks right before the closing ones are the hard case: the reader has to tell them apart by counting.

Source: specification, 10.4.
-/

import GuestKernel.Toml.Quoted

namespace GuestKernel
namespace Toml

/-- The reading of a character before what is read after it. -/
def consRead (c : Char) : Option (List Char × List Char) → Option (List Char × List Char) :=
  Option.map fun (body, rest) => (c :: body, rest)

namespace QuoteForm

/-- How many marks in a row stand for themselves. -/
def limit (form : QuoteForm) : Nat := if form.multiline then 2 else 0

/-- The marks around a body. -/
def marks (form : QuoteForm) : List Char := List.replicate (if form.multiline then 3 else 1) form.mark

/-- A form of one line, or of several. -/
def Known (form : QuoteForm) : Prop := (form = basic ∨ form = literal) ∨ form = longBasic ∨ form = longLiteral

theorem Known.mark_ne_break {form : QuoteForm} (h : form.Known) : form.mark ≠ '\n' ∧ form.mark ≠ '\r' := by
  rcases h with (rfl | rfl) | rfl | rfl <;> decide

end QuoteForm

/-! ## Pieces -/

/-- A piece of a body that stands for a character, whatever comes after it. Its first character is no mark, and begins
a line break only if the character is one. -/
structure Spells (form : QuoteForm) (c : Char) (piece : List Char) : Prop where
  starts : ∃ d ds, piece = d :: ds ∧ d ≠ form.mark ∧ d ≠ '\r' ∧ (d = '\n' → c = '\n')
  reads : ∀ tail, readBody form 0 (piece ++ tail) = consRead c (readBody form 0 tail)

theorem readBody_length_append (form : QuoteForm) (taken tail : List Char) :
    readBody form taken.length (taken ++ tail) = readBody form 0 tail := by
  induction taken with
  | nil => rfl
  | cons c rest ih => exact ih

/-- A character that stands for itself. -/
theorem Spells.self {form : QuoteForm} {c : Char} (hmark : c ≠ form.mark) (hesc : form.escapes = true → c ≠ '\\')
    (hc : isTextual c = true ∨ c = '\n' ∧ form.multiline = true) : Spells form c [c] := by
  have hcr : c ≠ '\r' := by
    rintro rfl
    rcases hc with h | ⟨h, -⟩ <;> revert h <;> decide
  refine ⟨⟨c, [], rfl, hmark, hcr, id⟩, fun tail => ?_⟩
  rw [List.singleton_append, readBody, if_neg hmark, if_neg (by simpa using fun h he => hesc he h)]
  by_cases hbreak : (decide (c = '\n') && form.multiline) = true
  · rw [if_pos hbreak]
    rfl
  · have htext : isTextual c = true := hc.resolve_right fun h => hbreak (by simp [h])
    rw [if_neg hbreak, if_neg (by simp [hcr]), if_pos htext]
    rfl

/-- A character that an escape stands for. -/
theorem Spells.escape {form : QuoteForm} {c : Char} {taken : List Char} (hmark : form.mark ≠ '\\')
    (hesc : form.escapes = true)
    (h : ∀ tail, escape? form.multiline (taken ++ tail) = some ([c], taken.length)) :
    Spells form c ('\\' :: taken) := by
  refine ⟨⟨'\\', taken, rfl, hmark.symm, by decide, fun h => absurd h (by decide)⟩, fun tail => ?_⟩
  rw [List.cons_append, readBody, if_neg hmark.symm, if_pos (by simp [hesc]), h tail]
  dsimp only
  rw [readBody_length_append]
  rfl

/-! ## Codes -/

theorem codeDigits_eq (c : Char) :
    codeDigits c = (List.replicate (4 - (Nat.toDigits 16 c.toNat).length) '0' ++ Nat.toDigits 16 c.toNat).map
      Char.toUpper := by
  simp [codeDigits, hexPad]

/-- Control characters have codes of four digits, which stand for them. -/
theorem code_small (n : Nat) (h : n < 128) :
    let digits := (List.replicate (4 - (Nat.toDigits 16 n).length) '0' ++ Nat.toDigits 16 n).map Char.toUpper
    digits.length = 4 ∧ hexNumber? 0 digits = some n := by
  revert n
  decide

theorem needsCode_lt {c : Char} (h : needsCode c = true) : c.toNat < 128 := by
  simp only [needsCode, Bool.or_eq_true, Bool.and_eq_true, decide_eq_true_eq] at h
  rcases h with ⟨⟨h, -⟩, -⟩ | rfl
  · have : c.toNat < ' '.toNat := h
    exact Nat.lt_trans this (by decide)
  · decide

/-- A code point escape is read as its character. -/
theorem escape?_code {c : Char} (h : needsCode c = true) (multiline : Bool) (tail : List Char) :
    escape? multiline ('u' :: codeDigits c ++ tail) = some ([c], ('u' :: codeDigits c).length) := by
  obtain ⟨hlength, hnumber⟩ := code_small c.toNat (needsCode_lt h)
  rw [← codeDigits_eq] at hlength hnumber
  have htake : (codeDigits c ++ tail).take 4 = codeDigits c := by
    rw [← hlength, List.take_left]
  have hchar : charOfHex? 4 (codeDigits c ++ tail) = some c := by
    rw [charOfHex?, htake, if_pos hlength, hnumber]
    have hvalid : c.toNat.isValidChar := c.valid
    have hc : Char.ofNatAux c.toNat hvalid = c := (dif_pos hvalid).symm.trans (Char.ofNat_toNat c)
    exact (dif_pos hvalid).trans (congrArg some hc)
  rw [List.cons_append, escape?, hchar, List.length_cons, hlength]
  rfl

/-! ## Bodies -/

/-- A text spelled by pieces, after `run` marks in a row. -/
def spell (form : QuoteForm) (piece : Char → List Char) : (run : Nat) → List Char → List Char
  | _, [] => []
  | run, c :: rest =>
    if c = form.mark ∧ run < form.limit then c :: spell form piece (run + 1) rest
    else piece c ++ spell form piece 0 rest

/-- Every piece that is used spells its character. -/
def Spelled (form : QuoteForm) (piece : Char → List Char) : (run : Nat) → List Char → Prop
  | _, [] => True
  | run, c :: rest =>
    if c = form.mark ∧ run < form.limit then Spelled form piece (run + 1) rest
    else Spells form c (piece c) ∧ Spelled form piece 0 rest

variable {form : QuoteForm} {piece : Char → List Char} {tail text : List Char} {run : Nat} {c : Char}

theorem spelled_of_forall (h : ∀ c, Spells form c (piece c)) (run : Nat) (text : List Char) :
    Spelled form piece run text := by
  induction text generalizing run with
  | nil => trivial
  | cons c rest ih =>
    rw [Spelled]
    split
    · exact ih _
    · exact ⟨h c, ih _⟩

/-- How many marks begin a text. -/
def leading (mark : Char) (text : List Char) : Nat := (text.takeWhile (· = mark)).length

theorem leading_cons_self (mark : Char) (text : List Char) : leading mark (mark :: text) = leading mark text + 1 := by
  simp [leading]

theorem leading_replicate_append {mark : Char} (n : Nat) (h : tail.head? ≠ some mark) :
    leading mark (List.replicate n mark ++ tail) = n := by
  induction n with
  | zero => cases tail <;> simp_all [leading]
  | succ n ih => rw [List.replicate_succ, List.cons_append, leading_cons_self, ih]

/-- A spelled text is marks only, as many as may stand in a row, or fewer marks than that begin it and something else
follows. -/
theorem leading_spell (h : Spelled form piece run text) (hrun : run ≤ form.limit) :
    (∃ n, run + n ≤ form.limit ∧ text = List.replicate n form.mark ∧
      spell form piece run text = List.replicate n form.mark) ∨
    ∀ tail, run + leading form.mark (spell form piece run text ++ tail) ≤ form.limit := by
  induction text generalizing run with
  | nil => exact .inl ⟨0, hrun, rfl, rfl⟩
  | cons c rest ih =>
    by_cases hc : c = form.mark ∧ run < form.limit
    · rw [Spelled, if_pos hc] at h
      rw [spell, if_pos hc, hc.1]
      rcases ih h hc.2 with ⟨n, hn, hrest, hspell⟩ | hlead
      · exact .inl ⟨n + 1, by omega, by rw [hrest]; rfl, by rw [hspell]; rfl⟩
      · refine .inr fun tail => ?_
        have := hlead tail
        rw [List.cons_append, leading_cons_self]
        omega
    · rw [Spelled, if_neg hc] at h
      obtain ⟨d, ds, hpiece, hd, -⟩ := h.1.starts
      refine .inr fun tail => ?_
      rw [spell, if_neg hc, hpiece]
      simpa [leading, hd] using hrun

/-- Marks up to the limit before the closing ones belong to the text. -/
theorem readBody_marks {n : Nat} (hn : n ≤ form.limit) (ht : tail.head? ≠ some form.mark) :
    readBody form 0 (List.replicate n form.mark ++ form.marks ++ tail) = some (List.replicate n form.mark, tail) := by
  rw [QuoteForm.limit] at hn
  rw [QuoteForm.marks, List.replicate_append_replicate]
  cases hm : form.multiline with
  | false =>
    obtain rfl : n = 0 := by simpa [hm] using hn
    simp [readBody, hm]
  | true =>
    have hn2 : n ≤ 2 := by simpa [hm] using hn
    have hmore := leading_replicate_append (n + 2) ht
    have hdrop : (List.replicate (n + 2) form.mark ++ tail).drop (n + 2) = tail := by simp
    rw [if_pos rfl, List.replicate_succ, List.cons_append, readBody, if_pos rfl, if_pos hm]
    rw [leading] at hmore
    rw [hmore, if_neg (by omega), Nat.min_eq_left (by omega : n + 2 ≤ 4), hdrop, Nat.add_sub_cancel,
      Nat.min_eq_left hn2]

/-- **A spelled body is read back up to its closing marks.** -/
theorem readBody_spell (h : Spelled form piece run text) (hrun : run ≤ form.limit) (ht : tail.head? ≠ some form.mark) :
    readBody form 0 (spell form piece run text ++ form.marks ++ tail) = some (text, tail) := by
  induction text generalizing run with
  | nil => exact readBody_marks (Nat.zero_le _) ht
  | cons c rest ih =>
    -- Marks up to the end are counted together with the closing ones; all others are read one at a time.
    rcases leading_spell h hrun with ⟨n, hn, htext, hspell⟩ | hlead
    · rw [hspell, htext]
      exact readBody_marks (by omega) ht
    by_cases hc : c = form.mark ∧ run < form.limit
    · rw [Spelled, if_pos hc] at h
      have hm : form.multiline = true := by
        cases hm : form.multiline with
        | true => rfl
        | false => simp [QuoteForm.limit, hm] at hc
      have hmore : leading form.mark (spell form piece (run + 1) rest ++ (form.marks ++ tail)) < 2 := by
        have hlimit : form.limit = 2 := by simp [QuoteForm.limit, hm]
        have := hlead (form.marks ++ tail)
        rw [spell, if_pos hc, hc.1, List.cons_append, leading_cons_self] at this
        omega
      rw [spell, if_pos hc, hc.1, List.cons_append, List.cons_append, readBody, if_pos rfl, if_pos hm,
        List.append_assoc]
      refine (if_pos hmore).trans ?_
      rw [← List.append_assoc, ih h hc.2]
      rfl
    · rw [Spelled, if_neg hc] at h
      rw [spell, if_neg hc, List.append_assoc, List.append_assoc, h.1.reads, ← List.append_assoc,
        ih h.2 (Nat.zero_le _)]
      rfl

/-! ## Forms with escapes -/

/-- The piece of a character in a form with escapes. -/
def basicPiece (form : QuoteForm) (c : Char) : List Char := if c = '"' then ['\\', '"'] else escaped form c

theorem escapeBody_eq_spell (hmark : form.mark = '"') (run : Nat) (text : List Char) :
    escapeBody form run text = spell form (basicPiece form) run text := by
  induction text generalizing run with
  | nil => rfl
  | cons c rest ih =>
    rw [escapeBody, spell, hmark, QuoteForm.limit]
    by_cases hc : c = '"'
    · by_cases hrun : run < if form.multiline then 2 else 0
      · rw [if_pos hc, if_pos hrun, if_pos ⟨hc, hrun⟩, ih]
      · rw [if_pos hc, if_neg hrun, if_neg (fun h => hrun h.2), ih, basicPiece, if_pos hc, hc]
        rfl
    · rw [if_neg hc, if_neg (fun h => hc h.1), ih, basicPiece, if_neg hc]

theorem isTextual_of_not_needsCode (h : ¬ needsCode c = true) (hbreak : c ≠ '\n') : isTextual c = true := by
  simp only [needsCode, isTextual, Bool.or_eq_true, Bool.and_eq_true, decide_eq_true_eq, bne_iff_ne, not_or,
    not_and, Char.lt_def, Char.le_def, UInt32.lt_iff_toNat_lt, UInt32.le_iff_toNat_le] at h ⊢
  obtain ⟨hcontrol, hdelete⟩ := h
  have hdelete : c.val.toNat ≠ 0x7f := fun e => hdelete (Char.ext (UInt32.toNat_inj.1 e))
  by_cases htab : c = '\t'
  · exact .inl (.inl htab)
  · have : ¬ c.val.toNat < 32 := fun h => hcontrol ⟨h, htab⟩ hbreak
    have hspace : ' '.val.toNat = 32 := rfl
    have htilde : '~'.val.toNat = 126 := rfl
    have hlast : '\u0080'.val.toNat = 128 := rfl
    omega

/-- Every character has a piece in a form with escapes. -/
theorem Spells.basic (hmark : form.mark = '"') (hesc : form.escapes = true) (c : Char) :
    Spells form c (basicPiece form c) := by
  have hback : form.mark ≠ '\\' := by rw [hmark]; decide
  unfold basicPiece escaped
  split
  · next h => subst h; exact .escape hback hesc fun _ => rfl
  next hquote =>
  split
  · next h => subst h; exact .escape hback hesc fun _ => rfl
  split
  · next h => subst h; exact .escape hback hesc fun _ => rfl
  split
  · next h =>
    subst h
    split
    · next hm => exact .self (hmark ▸ hquote) (fun _ => by decide) (.inr ⟨rfl, hm⟩)
    · exact .escape hback hesc fun _ => rfl
  next hbreak =>
  split
  · next h => subst h; exact .escape hback hesc fun _ => rfl
  split
  · next h => subst h; exact .escape hback hesc fun _ => rfl
  split
  · next h => subst h; exact .escape hback hesc fun _ => rfl
  next hslash =>
  split
  · next h => exact .escape hback hesc (escape?_code h _)
  · next h => exact .self (hmark ▸ hquote) (fun _ => hslash) (.inl (isTextual_of_not_needsCode h hbreak))

/-! ## Forms without escapes -/

theorem spell_self (run : Nat) (text : List Char) : spell form (fun c => [c]) run text = text := by
  induction text generalizing run with
  | nil => rfl
  | cons c rest ih =>
    rw [spell]
    split <;> simp [ih]

/-- One character of the count that finds the longest run. -/
def runStep (c : Char) : Nat × Nat → Char → Nat × Nat
  | (longest, run), d => if d = c then (max longest (run + 1), run + 1) else (longest, 0)

theorem le_foldl_runStep (c : Char) (text : List Char) (counts : Nat × Nat) :
    counts.1 ≤ (text.foldl (runStep c) counts).1 := by
  induction text generalizing counts with
  | nil => exact Nat.le_refl _
  | cons d rest ih =>
    obtain ⟨longest, run⟩ := counts
    refine Nat.le_trans ?_ (ih _)
    rw [runStep]
    split
    · exact Nat.le_max_left _ _
    · exact Nat.le_refl _

/-- A text may stand as it is where nothing in it needs an escape. -/
theorem spelled_self {longest run : Nat} (hesc : form.escapes = false)
    (hcode : ∀ c ∈ text, ¬ needsCode c = true) (hbreak : form.multiline = true ∨ ∀ c ∈ text, c ≠ '\n')
    (hruns : (text.foldl (runStep form.mark) (longest, run)).1 ≤ form.limit) :
    Spelled form (fun c => [c]) run text := by
  induction text generalizing longest run with
  | nil => trivial
  | cons c rest ih =>
    have hcode' := fun d hd => hcode d (List.mem_cons_of_mem c hd)
    have hbreak' := hbreak.imp_right fun h d hd => h d (List.mem_cons_of_mem c hd)
    rw [List.foldl_cons, runStep] at hruns
    by_cases hc : c = form.mark
    · rw [if_pos hc] at hruns
      have hle := Nat.le_trans (le_foldl_runStep _ _ _) hruns
      rw [Spelled, if_pos ⟨hc, by dsimp only at hle; omega⟩]
      exact ih hcode' hbreak' hruns
    · rw [if_neg hc] at hruns
      rw [Spelled, if_neg fun h => hc h.1]
      refine ⟨.self hc (by simp [hesc]) ?_, ih hcode' hbreak' hruns⟩
      by_cases hn : c = '\n'
      · exact .inr ⟨hn, hbreak.resolve_right fun h => h c List.mem_cons_self hn⟩
      · exact .inl (isTextual_of_not_needsCode (hcode c List.mem_cons_self) hn)

/-! ## Whole texts -/

/-- A form without escapes is chosen only for a text that suits it. -/
theorem chooseForm_cases (text : List Char) :
    chooseForm text = .basic ∨ chooseForm text = .longBasic ∨
      (chooseForm text = .literal ∨ chooseForm text = .longLiteral) ∧ (chooseForm text).suits text = true := by
  unfold chooseForm
  split
  · next form h =>
    have hsuits : form.suits text = true := by simpa using List.find?_some h
    have hmem := List.mem_of_find?_eq_some h
    simp only [List.mem_cons, List.not_mem_nil, or_false] at hmem
    rcases hmem with h | h | h | h
    · exact .inl h
    · exact .inr (.inr ⟨.inl h, hsuits⟩)
    · exact .inr (.inl h)
    · exact .inr (.inr ⟨.inr h, hsuits⟩)
  · split
    · exact .inr (.inl rfl)
    · exact .inl rfl

/-- What stands between the marks of a text in a form, but for a line break that goes first. -/
def bodyOf (form : QuoteForm) (text : List Char) : List Char := if form.escapes then escapeBody form 0 text else text

/-- **The form in which a text is written spells it.** -/
theorem spelled_chooseForm (text : List Char) :
    ∃ piece, bodyOf (chooseForm text) text = spell (chooseForm text) piece 0 text ∧
      Spelled (chooseForm text) piece 0 text := by
  have hbasic {form : QuoteForm} (hmark : form.mark = '"') (hesc : form.escapes = true) :
      ∃ piece, bodyOf form text = spell form piece 0 text ∧ Spelled form piece 0 text :=
    ⟨basicPiece form, (if_pos hesc).trans (escapeBody_eq_spell hmark 0 text),
      spelled_of_forall (.basic hmark hesc) 0 text⟩
  have hliteral {form : QuoteForm} (hesc : form.escapes = false) (h : form.suits text = true) :
      ∃ piece, bodyOf form text = spell form piece 0 text ∧ Spelled form piece 0 text := by
    simp only [QuoteForm.suits, Bool.and_eq_true, Bool.or_eq_true, decide_eq_true_eq] at h
    obtain ⟨⟨⟨hcode, -⟩, hbreak⟩, hruns⟩ := h
    replace hruns : (text.foldl (runStep form.mark) (0, 0)).1 ≤ form.limit := hruns
    have hbody : bodyOf form text = spell form (fun c => [c]) 0 text := by
      rw [bodyOf, hesc, spell_self]
      rfl
    refine ⟨fun c => [c], hbody, spelled_self hesc ?_ ?_ hruns⟩
    · simpa using hcode
    · refine hbreak.imp_right fun h c hc e => ?_
      have hnone : '\n' ∉ text := by simpa using h
      exact hnone (e ▸ hc)
  rcases chooseForm_cases text with h | h | ⟨h | h, hsuits⟩
  · exact h ▸ hbasic rfl rfl
  · exact h ▸ hbasic rfl rfl
  · exact hliteral (h ▸ rfl) hsuits
  · exact hliteral (h ▸ rfl) hsuits

/-- A text without line breaks is spelled by a body that does not begin with one. -/
theorem afterBreak?_spell (h : Spelled form piece run text)
    (hbreak : '\n' ∉ text) (hmark : form.mark ≠ '\n' ∧ form.mark ≠ '\r') :
    afterBreak? (spell form piece run text ++ form.marks ++ tail) = none := by
  have hnone {c : Char} {rest : List Char} (hn : c ≠ '\n') (hr : c ≠ '\r') : afterBreak? (c :: rest) = none := by
    unfold afterBreak?
    split <;> simp_all
  cases text with
  | nil =>
    cases hm : form.multiline <;>
      simpa [spell, QuoteForm.marks, hm, List.replicate_succ] using hnone hmark.1 hmark.2
  | cons c rest =>
    rw [spell]
    rw [Spelled] at h
    split at h
    · next hc =>
      rw [if_pos hc, hc.1]
      exact hnone hmark.1 hmark.2
    · next hc =>
      obtain ⟨d, ds, hpiece, -, hr, hn⟩ := h.1.starts
      rw [if_neg hc, hpiece]
      exact hnone (fun e => hbreak (hn e ▸ List.mem_cons_self)) hr

/-- One mark opens a text of one line, if no two more follow. -/
theorem openQuote?_one {rest : List Char} (hform : form = .basic ∨ form = .literal)
    (h : leading form.mark rest < 2) : openQuote? (form.marks ++ rest) = some (form, rest) := by
  have hrest (more : List Char) : rest ≠ form.mark :: form.mark :: more := by
    rintro rfl
    rw [leading_cons_self, leading_cons_self] at h
    omega
  rcases hform with rfl | rfl
  · change openQuote? ('"' :: rest) = _
    unfold openQuote?
    split
    · next heq => exact absurd (List.cons.inj heq).2 (hrest _)
    · next heq => rw [(List.cons.inj heq).2]
    · next heq => exact absurd (List.cons.inj heq).1 (by decide)
    · next heq => exact absurd (List.cons.inj heq).1 (by decide)
    · next hnone _ _ => exact absurd rfl (hnone _)
  · change openQuote? ('\'' :: rest) = _
    unfold openQuote?
    split
    · next heq => exact absurd (List.cons.inj heq).1 (by decide)
    · next heq => exact absurd (List.cons.inj heq).1 (by decide)
    · next heq => exact absurd (List.cons.inj heq).2 (hrest _)
    · next heq => rw [(List.cons.inj heq).2]
    · next hnone => exact absurd rfl (hnone _)

/-- Three marks open a text of several lines, without a line break right after them. -/
theorem openQuote?_three (hform : form = .longBasic ∨ form = .longLiteral) (rest : List Char) :
    openQuote? (form.marks ++ rest) = some (form, (afterBreak? rest).getD rest) := by
  rcases hform with rfl | rfl <;> rfl

/-- The opening marks of a written string tell its form. -/
theorem openQuote?_writeForm (hform : form.Known)
    (hbody : bodyOf form text = spell form piece 0 text) (h : Spelled form piece 0 text) :
    openQuote? (writeForm form text ++ '\n' :: tail) =
      some (form, spell form piece 0 text ++ form.marks ++ '\n' :: tail) := by
  have hmark := hform.mark_ne_break
  have hwrite : writeForm form text ++ '\n' :: tail =
      form.marks ++ ((if form.multiline && text.contains '\n' then ['\n'] else []) ++
        (spell form piece 0 text ++ form.marks ++ '\n' :: tail)) := by
    rw [← hbody]
    simp [writeForm, bodyOf, QuoteForm.marks]
  rw [hwrite]
  rcases hform with hone | hthree
  · have hm : form.multiline = false := by rcases hone with rfl | rfl <;> rfl
    have hlimit : form.limit = 0 := by simp [QuoteForm.limit, hm]
    rw [hm, Bool.false_and, if_neg Bool.false_ne_true, List.nil_append]
    refine openQuote?_one hone ?_
    -- An empty body leaves the closing mark right after the opening one, but a line break follows that.
    rcases leading_spell h (Nat.zero_le _) with ⟨n, hn, -, hspell⟩ | hlead
    · have hhead : ('\n' :: tail).head? ≠ some form.mark := by simpa using hmark.1.symm
      have hmarks : form.marks = [form.mark] := by simp [QuoteForm.marks, hm]
      rw [hspell, hmarks, ← List.replicate_succ', leading_replicate_append _ hhead]
      omega
    · have := hlead (form.marks ++ '\n' :: tail)
      rw [List.append_assoc]
      omega
  · have hm : form.multiline = true := by rcases hthree with rfl | rfl <;> rfl
    rw [hm, Bool.true_and, openQuote?_three hthree]
    split
    · rfl
    · next hbreak =>
      rw [List.nil_append, afterBreak?_spell h (by simpa using hbreak) hmark]
      rfl

theorem chooseForm_known (text : List Char) : (chooseForm text).Known := by
  rcases chooseForm_cases text with h | h | ⟨h | h, -⟩
  · exact .inl (.inl h)
  · exact .inr (.inl h)
  · exact .inl (.inr h)
  · exact .inr (.inr h)

/-- **A quoted text at the end of a line is read back**, whatever its characters. -/
theorem readQuoted_writeQuoted (s : String) (tail : List Char) :
    readQuoted (writeQuoted s ++ '\n' :: tail) = some (s, '\n' :: tail) := by
  obtain ⟨piece, hbody, hspelled⟩ := spelled_chooseForm s.toList
  have hform := chooseForm_known s.toList
  have hhead : ('\n' :: tail).head? ≠ some (chooseForm s.toList).mark := by
    simpa using hform.mark_ne_break.1.symm
  rw [readQuoted, writeQuoted, openQuote?_writeForm hform hbody hspelled]
  dsimp only
  rw [readBody_spell hspelled (Nat.zero_le _) hhead]
  simp

/-- A written text begins with a quote or an apostrophe. -/
theorem writeQuoted_eq_cons (s : String) :
    ∃ mark rest, writeQuoted s = mark :: rest ∧ (mark = '"' ∨ mark = '\'') := by
  have hwrite (form : QuoteForm) : ∃ rest, writeForm form s.toList = form.mark :: rest := by
    cases hm : form.multiline <;> simp [writeForm, hm, List.replicate_succ]
  obtain ⟨rest, h⟩ := hwrite (chooseForm s.toList)
  refine ⟨_, rest, h, ?_⟩
  rcases chooseForm_known s.toList with (h | h) | h | h <;> rw [h] <;> decide

end Toml
end GuestKernel
