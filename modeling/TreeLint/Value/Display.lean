import TreeLint.Decimal.Shortest
import TreeLint.Text.Numeral
import TreeLint.Text.Quoted
import TreeLint.Value.Basic

/-!
# Values in messages

`Value.inner` is the form of a value inside another one, with texts quoted; `Value.shown` is its
form on its own, where a text stands as it is.  A value has these forms exactly when all the
integers in it can be written out.
-/

namespace TreeLint.Value

open Text (Unwritable)

mutual

def inner : Value → Except Unwritable String
  | .null => .ok "None"
  | .bool true => .ok "True"
  | .bool false => .ok "False"
  | .int n => Text.written n
  | .float x => .ok x.text
  | .str s => .ok (Text.quoted s)
  | .moment m => .ok m.text
  | .list items => (innerItems items).map fun texts => "[" ++ ", ".intercalate texts ++ "]"
  | .table fields =>
    (innerFields fields).map fun texts => "\x7b" ++ ", ".intercalate texts ++ "\x7d"

def innerItems : List Value → Except Unwritable (List String)
  | [] => .ok []
  | v :: rest => do
    let text ← inner v
    let texts ← innerItems rest
    return text :: texts

def innerFields : List (String × Value) → Except Unwritable (List String)
  | [] => .ok []
  | (name, v) :: rest => do
    let text ← inner v
    let texts ← innerFields rest
    return (Text.quoted name ++ ": " ++ text) :: texts

end

def shown : Value → Except Unwritable String
  | .str s => .ok s
  | v => inner v

@[simp] theorem shown_str (s : String) : shown (.str s) = .ok s := rfl

mutual

/-- Whether every integer in a value can be written out. -/
def isWritable : Value → Bool
  | .int n => Text.isWritable n
  | .list items => areWritable items
  | .table fields => fieldsAreWritable fields
  | _ => true

def areWritable : List Value → Bool
  | [] => true
  | v :: rest => isWritable v && areWritable rest

def fieldsAreWritable : List (String × Value) → Bool
  | [] => true
  | (_, v) :: rest => isWritable v && fieldsAreWritable rest

end

end TreeLint.Value
