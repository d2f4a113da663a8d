/-
# Building tables

`alter` goes down a path of names, makes the tables that are missing, and changes the table at the end. A path through
tables written one after another goes through the last of them. What is closed stays closed: no path leads into a
value, and dotted keys do not lead into a table that has a header.

Source: specification, 10.4.
-/

import GuestKernel.Toml.Value

namespace GuestKernel
namespace Toml

/-- Changes the table at the end of a path. `change` is given how that table was written. -/
def alter (making : Origin) (change : Origin → Fields → Option Fields) :
    (here : Origin) → (path : List String) → Fields → Option Fields
  | here, [], fields => change here fields
  | _, key :: path, fields =>
    match fields.get? key with
    | none => (alter making change making path []).map fun sub => fields.set key (.table making sub)
    | some (.table origin sub) =>
      if origin = .inline ∨ (making = .dotted ∧ origin = .header) then none
      else (alter making change origin path sub).map fun sub => fields.set key (.table origin sub)
    | some (.tables elements) =>
      match elements.getLast? with
      | none => none
      | some sub =>
        (alter making change .header path sub).map fun sub =>
          fields.set key (.tables (elements.dropLast ++ [sub]))
    | some _ => none

/-- Adds a value under a new name. -/
def addField (key : String) (value : Value) (fields : Fields) : Option Fields :=
  match fields.get? key with
  | none => some (fields.set key value)
  | some _ => none

/-- Adds a value under a dotted key: the tables on the way are made by dotted keys only. -/
def assign (path : List String) (value : Value) (fields : Fields) : Option Fields :=
  match path.getLast? with
  | none => none
  | some key =>
    alter .dotted (fun origin fields => if origin = .dotted then addField key value fields else none) .dotted
      path.dropLast fields

/-- The table of an inline table's entries. -/
def inlineTable? (entries : List (List String × Value)) : Option Value :=
  (entries.foldlM (fun fields (path, value) => assign path value fields) []).map (.table .inline)

/-- Gives a table its header; an implied one may get one. -/
def openTable (key : String) (fields : Fields) : Option Fields :=
  match fields.get? key with
  | none => some (fields.set key (.table .header []))
  | some (.table .implied sub) => some (fields.set key (.table .header sub))
  | some _ => none

/-- Adds an empty table to those written one after another. -/
def openElement (key : String) (fields : Fields) : Option Fields :=
  match fields.get? key with
  | none => some (fields.set key (.tables [[]]))
  | some (.tables elements) => some (fields.set key (.tables (elements ++ [[]])))
  | some _ => none

end Toml
end GuestKernel
