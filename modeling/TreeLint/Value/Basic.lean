import TreeLint.Decimal.Binary64

/-!
# Dynamic values

The values that documents and configuration tables are made of.  A table lists its fields in the
order in which their names first appeared, one field a name.
-/

namespace TreeLint

/-- How much of a point in time is given. -/
inductive MomentKind where
  | date
  | time
  | dateTime
  deriving DecidableEq, Repr

/-- A date, a time of day, or both, as it was written. -/
structure Moment where
  kind : MomentKind
  text : String
  deriving DecidableEq, Repr

inductive Value where
  | null
  | bool (b : Bool)
  | int (n : Int)
  | float (x : Binary64)
  | str (s : String)
  | moment (m : Moment)
  | list (items : List Value)
  | table (fields : List (String × Value))
  deriving Repr

/-- The fields of a table. -/
abbrev Fields := List (String × Value)

namespace Fields

def get? (fields : Fields) (name : String) : Option Value :=
  (List.find? (fun field : String × Value => field.1 == name) fields).map Prod.snd

/-- Sets a field.  A name that is there already keeps its place. -/
def set (name : String) (value : Value) : Fields → Fields
  | [] => [(name, value)]
  | (n, v) :: rest => if n = name then (n, value) :: rest else (n, v) :: set name value rest

end Fields

def MomentKind.typeName : MomentKind → String
  | .date => "datetime.date"
  | .time => "datetime.time"
  | .dateTime => "datetime.datetime"

namespace Value

instance : Inhabited Value := ⟨.null⟩

mutual

/-- Whether two values are made of the same parts.  Numbers of different types never are. -/
def identical : Value → Value → Bool
  | .null, .null => true
  | .bool a, .bool b => a == b
  | .int m, .int n => m == n
  | .float x, .float y => decide (x = y)
  | .str s, .str t => s == t
  | .moment m, .moment n => decide (m = n)
  | .list items, .list others => identicalItems items others
  | .table fields, .table others => identicalFields fields others
  | _, _ => false

def identicalItems : List Value → List Value → Bool
  | [], [] => true
  | v :: items, w :: others => identical v w && identicalItems items others
  | _, _ => false

def identicalFields : List (String × Value) → List (String × Value) → Bool
  | [], [] => true
  | (name, v) :: fields, (other, w) :: others =>
    name == other && identical v w && identicalFields fields others
  | _, _ => false

end

mutual

theorem identical_iff (v w : Value) : identical v w = true ↔ v = w := by
  cases v with
  | list items =>
    cases w with
    | list others => simp [identical, identicalItems_iff items others]
    | _ => simp [identical]
  | table fields =>
    cases w with
    | table others => simp [identical, identicalFields_iff fields others]
    | _ => simp [identical]
  | _ => cases w <;> simp [identical]

theorem identicalItems_iff (items others : List Value) :
    identicalItems items others = true ↔ items = others := by
  cases items with
  | nil => cases others <;> simp [identicalItems]
  | cons v items =>
    cases others with
    | nil => simp [identicalItems]
    | cons w others => simp [identicalItems, identical_iff v w, identicalItems_iff items others]

theorem identicalFields_iff (fields others : List (String × Value)) :
    identicalFields fields others = true ↔ fields = others := by
  cases fields with
  | nil => cases others <;> simp [identicalFields]
  | cons field fields =>
    cases others with
    | nil => simp [identicalFields]
    | cons other others =>
      simp [identicalFields, identical_iff field.2 other.2, identicalFields_iff fields others,
        Prod.ext_iff]

end

instance : DecidableEq Value := fun v w => decidable_of_iff _ (identical_iff v w)

def isNull : Value → Bool
  | .null => true
  | _ => false

/-- The name of a value's type, as messages give it. -/
def typeName : Value → String
  | .null => "NoneType"
  | .bool _ => "bool"
  | .int _ => "int"
  | .float _ => "float"
  | .str _ => "str"
  | .moment m => m.kind.typeName
  | .list _ => "list"
  | .table _ => "dict"

/-- Empty, zero and absent values count as false, all others as true. -/
def truthy : Value → Bool
  | .null => false
  | .bool b => b
  | .int n => n != 0
  | .float x => !x.isZero
  | .str s => !s.isEmpty
  | .moment _ => true
  | .list items => !items.isEmpty
  | .table fields => !fields.isEmpty

end Value

end TreeLint
