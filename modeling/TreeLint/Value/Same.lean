import TreeLint.Value.Basic

/-!
# When two values are the same

Numbers are the same when they count the same, however they are written, and truth values count as
one and zero.  Tables are the same when they have the same fields, in any order.  What is not a
number is not a number of another kind either, so that no list or text is ever the same as a
number.
-/

namespace TreeLint.Value

/-- What a value counts as, if it is a finite number or a truth value. -/
def amount? : Value → Option Rat
  | .int n => some n
  | .bool b => some (if b then 1 else 0)
  | .float x => x.toRat?
  | _ => none

/-- Whether two numbers count the same. -/
def sameAmount (a b : Value) : Bool :=
  match a.amount?, b.amount? with
  | some x, some y => x == y
  | _, _ => false

mutual

def same : Value → Value → Bool
  | .null, .null => true
  | .str a, .str b => a == b
  | .moment a, .moment b => a == b
  | .float (.infinite s), .float (.infinite t) => s == t
  | .list items, .list others => sameItems items others
  | .table fields, .table others => fields.length == others.length && sameFields fields others
  | a, b => sameAmount a b

def sameItems : List Value → List Value → Bool
  | [], [] => true
  | v :: rest, w :: others => same v w && sameItems rest others
  | _, _ => false

/-- Whether the fields stand in the other table with the same values. -/
def sameFields : List (String × Value) → Fields → Bool
  | [], _ => true
  | (name, v) :: rest, others =>
    (match Fields.get? others name with
      | some w => same v w
      | none => false)
      && sameFields rest others

end

@[simp] theorem same_str (a b : String) : same (.str a) (.str b) = (a == b) := by
  simp [same]

/-- Whether things can be filed under a value.  Lists and tables are no keys. -/
def isKey : Value → Bool
  | .list _ | .table _ => false
  | _ => true

/-- The words for a value that is no key. -/
def noKeyText (typeName : String) : String := "unhashable type: '" ++ typeName ++ "'"

end TreeLint.Value
