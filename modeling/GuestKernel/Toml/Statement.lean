/-
# Statements

A text is a sequence of lines. Each holds a statement, or nothing but blanks and a comment; a value in brackets or a
quoted text of several lines makes its line longer.

| statement | written |
| --- | --- |
| `assign` | `a.b = value` |
| `header` | `[a.b]` |
| `element` | `[[a.b]]` |

Keys have fewer than 80 parts, and brackets are nested less than 80 deep.

Source: specification, 10.4.
-/

import GuestKernel.Toml.Scalar
import GuestKernel.Toml.Table

namespace GuestKernel
namespace Toml

/-- A line of a configuration text. -/
inductive Statement where
  | assign (path : List String) (value : Value)
  | header (path : List String)
  | element (path : List String)

/-- The most parts of a key, and the deepest nesting of brackets. -/
def depthLimit : Nat := 79

/-- Characters of a key without quotes. -/
def isKeyChar (c : Char) : Bool := c.isAlphanum || c = '-' || c = '_'

/-- Reads one part of a key, with the blanks around it. -/
def readKeyPart (text : List Char) : Option (String × List Char) :=
  let text := skipBlanks text
  let part? := match text with
    | '"' :: _ => readQuotedLine text
    | '\'' :: _ => readQuotedLine text
    | _ =>
      let (key, rest) := text.span isKeyChar
      if key.isEmpty then none else some (String.ofList key, rest)
  part?.map fun (key, rest) => (key, skipBlanks rest)

/-- Reads a key of at most `limit` parts. -/
def readKey : (limit : Nat) → Reader (List String)
  | 0, _ => none
  | limit + 1, text =>
    match readKeyPart text with
    | none => none
    | some (key, '.' :: rest) => (readKey limit rest).map fun (path, rest) => (key :: path, rest)
    | some (key, rest) => some ([key], rest)

/-- Reads items up to a closing bracket, each followed by a comma or by the bracket. The length of the text bounds the
number of items. -/
def readItems (item : Reader Value) : (fuel : Nat) → Reader (List Value)
  | 0, _ => none
  | fuel + 1, text =>
    match skipSpace false text with
    | none => none
    | some (']' :: rest) => some ([], rest)
    | some text =>
      match item text with
      | none => none
      | some (value, rest) =>
        match skipSpace false rest with
        | some (',' :: rest) => (readItems item fuel rest).map fun (values, rest) => (value :: values, rest)
        | some (']' :: rest) => some ([value], rest)
        | _ => none

/-- Reads an entry of an inline table. -/
def readEntry (item : Reader Value) (text : List Char) : Option ((List String × Value) × List Char) :=
  match readKey depthLimit text with
  | some (path, '=' :: rest) =>
    (item (skipBlanks rest)).map fun (value, rest) => ((path, value), skipBlanks rest)
  | _ => none

/-- Reads the entries of an inline table up to its closing brace; no comma stands before that. -/
def readEntries (item : Reader Value) : (fuel : Nat) → Reader (List (List String × Value))
  | 0, _ => none
  | fuel + 1, text =>
    match readEntry item text with
    | none => none
    | some (entry, ',' :: rest) =>
      (readEntries item fuel rest).map fun (entries, rest) => (entry :: entries, rest)
    | some (entry, '\x7d' :: rest) => some ([entry], rest)
    | some _ => none

/-- Reads an inline table after its opening brace. -/
def readInline (item : Reader Value) (text : List Char) : Option (Value × List Char) :=
  match skipBlanks text with
  | '\x7d' :: rest => some (.table .inline [], rest)
  | text =>
    match readEntries item text.length text with
    | some (entries, rest) => (inlineTable? entries).map fun table => (table, rest)
    | none => none

/-- Reads a value with brackets nested at most `depth` deep. -/
def readValue : (depth : Nat) → Reader Value
  | depth, text =>
    match text with
    | '"' :: _ => (readQuoted text).map fun (s, rest) => (.string s, rest)
    | '\'' :: _ => (readQuoted text).map fun (s, rest) => (.string s, rest)
    | '[' :: rest =>
      match depth with
      | 0 => none
      | depth + 1 => (readItems (readValue depth) text.length rest).map fun (values, rest) => (.array values, rest)
    | '\x7b' :: rest =>
      match depth with
      | 0 => none
      | depth + 1 => readInline (readValue depth) rest
    | _ => readScalar text

/-- Reads a statement up to the end of its line. -/
def readStatement (text : List Char) : Option (Statement × List Char) :=
  match text with
  | '[' :: '[' :: rest =>
    match readKey depthLimit rest with
    | some (path, ']' :: ']' :: rest) => (afterLine? rest).map fun rest => (.element path, rest)
    | _ => none
  | '[' :: rest =>
    match readKey depthLimit rest with
    | some (path, ']' :: rest) => (afterLine? rest).map fun rest => (.header path, rest)
    | _ => none
  | _ =>
    match readKey depthLimit text with
    | some (path, '=' :: rest) =>
      match readValue depthLimit (skipBlanks rest) with
      | some (value, rest) => (afterLine? rest).map fun rest => (.assign path value, rest)
      | none => none
    | _ => none

/-- Reads a line, which may hold no statement. -/
def readLine (text : List Char) : Option (Option Statement × List Char) :=
  match skipBlanks text with
  | [] => some (none, [])
  | c :: rest =>
    if c = '#' ∨ c = '\n' ∨ c = '\r' then (afterLine? (c :: rest)).map fun rest => (none, rest)
    else (readStatement (c :: rest)).map fun (s, rest) => (some s, rest)

/-- Reads at most `fuel` lines, which have to be all. -/
def readLines : (fuel : Nat) → List Char → Option (List Statement)
  | _, [] => some []
  | 0, _ => none
  | fuel + 1, text =>
    match readLine text with
    | none => none
    | some (none, rest) => readLines fuel rest
    | some (some s, rest) => (readLines fuel rest).map (s :: ·)

/-- The statements of a text. A byte order mark at the start is skipped, and no line is empty, so there are no more
lines than characters. -/
def statements? (text : List Char) : Option (List Statement) :=
  match text with
  | '\ufeff' :: rest => readLines rest.length rest
  | _ => readLines text.length text

/-- A table under construction: what has been written, and the table that values go to. -/
structure Draft where
  root : Fields := []
  path : List String := []

/-- Adds a statement to a draft. -/
def Draft.add (draft : Draft) : Statement → Option Draft
  | .assign path value =>
    (alter .implied (fun _ fields => assign path value fields) .header draft.path draft.root).map fun root =>
      { draft with root }
  | .header path =>
    match path.getLast? with
    | none => none
    | some key =>
      (alter .implied (fun _ fields => openTable key fields) .header path.dropLast draft.root).map fun root =>
        { root, path }
  | .element path =>
    match path.getLast? with
    | none => none
    | some key =>
      (alter .implied (fun _ fields => openElement key fields) .header path.dropLast draft.root).map fun root =>
        { root, path }

/-- The table that statements write. -/
def tableOf? (statements : List Statement) : Option Fields :=
  (statements.foldlM Draft.add {}).map (·.root)

/-- The table that a text stands for. -/
def read (text : List Char) : Option Fields := (statements? text).bind tableOf?

end Toml
end GuestKernel
