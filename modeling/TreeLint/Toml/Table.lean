import TreeLint.Value.Basic

/-!
# Growing a table of tables

A TOML document is read into one nested table.  A key leads through tables, and through the last
table of an array of tables; tables that are missing on the way are made.  Marks remember which
tables may not be opened or changed any more.
-/

namespace TreeLint.Toml

/-- Changes the table that a key leads to.  It fails where something else is in the way. -/
def changeAt (intoLists : Bool) (change : Fields → Option Fields) : List String → Fields →
    Option Fields
  | [], fields => change fields
  | name :: rest, fields =>
    match fields.get? name with
    | none => (changeAt intoLists change rest []).map fun inner => fields.set name (.table inner)
    | some (.table inner) =>
      (changeAt intoLists change rest inner).map fun inner => fields.set name (.table inner)
    | some (.list items) =>
      if intoLists then
        match items.getLast? with
        | some (.table inner) =>
          (changeAt intoLists change rest inner).map fun inner =>
            fields.set name (.list (items.dropLast ++ [.table inner]))
        | _ => none
      else none
    | some _ => none

/-- Sets a name that is not there yet. -/
def insertNew (name : String) (v : Value) (fields : Fields) : Option Fields :=
  if (fields.get? name).isSome then none else some (fields.set name v)

/-- Adds an empty table to an array of tables. -/
def appendTable (name : String) (fields : Fields) : Option Fields :=
  match fields.get? name with
  | none => some (fields.set name (.list [.table []]))
  | some (.list items) => some (fields.set name (.list (items ++ [.table []])))
  | some _ => none

/-- Why a table is marked: it was opened by name, or it was written out as a value. -/
inductive Mark where
  | opened
  | frozen
  deriving DecidableEq, Repr

/-- A marked key; a deep mark holds for everything below the key too. -/
structure Marked where
  key : List String
  mark : Mark
  deep : Bool
  deriving DecidableEq, Repr

abbrev Marks := List Marked

def Marks.has (marks : Marks) (key : List String) (mark : Mark) : Bool :=
  marks.any fun m => m.mark == mark && (m.key == key || (m.deep && m.key.isPrefixOf key))

/-- Removes the marks of a key and of everything below it. -/
def Marks.clear (marks : Marks) (key : List String) : Marks :=
  marks.filter fun m => !key.isPrefixOf m.key

end TreeLint.Toml
