import TreeLint.Value.Display
import TreeLint.Value.Same

/-!
# Line numbers

A dump gives a line as an integer of any size or as a truth value.  The two are told apart when they
are written, and a truth value counts as one or zero wherever lines are compared.  A node that is
added by hand may have any other value for its line.

Lines are filed and put in order by their keys.  Numbers come by what they count, and after them
the texts; among lines of other sorts, none of which holds an integer, the order is only there to
make it a total one.
-/

namespace TreeLint

inductive Line where
  | number (n : Int)
  | flag (b : Bool)
  | other (v : Value)
  deriving DecidableEq, Repr

namespace Line

/-- The line that a dump may give. -/
def ofValue? : Value → Option Line
  | .int n => some (.number n)
  | .bool b => some (.flag b)
  | _ => none

def ofValue (v : Value) : Line := (ofValue? v).getD (.other v)

def toValue : Line → Value
  | .number n => .int n
  | .flag b => .bool b
  | .other v => v

def text (line : Line) : Except Text.Unwritable String := line.toValue.shown

theorem toValue_ofValue (v : Value) : (ofValue v).toValue = v := by
  cases v <;> rfl

/-- What a line is filed under. -/
structure Key where
  /-- One for numbers; the infinite ones stand on either side. -/
  rank : Nat
  amount : Rat := 0
  text : String := ""
  deriving DecidableEq, Repr

instance : LT Key where
  lt a b :=
    a.rank < b.rank ∨ a.rank = b.rank ∧
      (a.amount < b.amount ∨ a.amount = b.amount ∧ a.text < b.text)

instance : DecidableLT Key := fun a b =>
  inferInstanceAs (Decidable (a.rank < b.rank ∨ a.rank = b.rank ∧
    (a.amount < b.amount ∨ a.amount = b.amount ∧ a.text < b.text)))

def keyOf (v : Value) : Key :=
  match v.amount?, v with
  | some amount, _ => { rank := 1, amount := amount }
  | none, .float (.infinite negative) => { rank := if negative then 0 else 2 }
  | none, .str s => { rank := 3, text := s }
  | none, v => { rank := 4, text := v.inner.toOption.getD "" }

def key (line : Line) : Key := keyOf line.toValue

/-- Whether a line may stand before another one. -/
def le (a b : Line) : Bool := !decide (b.key < a.key)

/-- Whether two lines have an order of their own: both are numbers, or both are texts. -/
def isOrdered (a b : Line) : Bool :=
  (a.key.rank < 3 && b.key.rank < 3) || (a.key.rank == 3 && b.key.rank == 3)

end Line

end TreeLint
