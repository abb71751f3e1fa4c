import TreeLint.Decimal.Binary64

/-!
# Time taken by a run

The clock gives seconds.  Both readings are turned into milliseconds before they are subtracted, and
the difference is rounded to the nearest integer, a half to the even one.  A clock that was set back
gives zero.
-/

namespace TreeLint

structure Stopwatch where
  started : Binary64 := .zero false
  stopped : Binary64 := .zero false
  deriving DecidableEq, Repr

namespace Stopwatch

def millis (seconds : Binary64) : Binary64 := seconds.mul (.ofInt 1000)

def start (watch : Stopwatch) (seconds : Binary64) : Stopwatch :=
  { watch with started := millis seconds }

def stop (watch : Stopwatch) (seconds : Binary64) : Stopwatch :=
  { watch with stopped := millis seconds }

/-- A difference that no integer is nearest to, or a reading that no double is nearest to. -/
inductive Error where
  | infinite
  | notANumber
  | tooLarge
  deriving DecidableEq, Repr

def Error.message : Error → String
  | .tooLarge => "int too large to convert to float"
  | .infinite => "cannot convert float infinity to integer"
  | .notANumber => "cannot convert float NaN to integer"

/-- A reading of the clock in whole seconds. -/
def wholeSeconds (n : Int) : Except Error Binary64 :=
  match Binary64.ofInt? n with
  | some seconds => .ok seconds
  | none => .error .tooLarge

def elapsed (watch : Stopwatch) : Except Error Nat :=
  let difference := watch.stopped.sub watch.started
  match difference.round? with
  | some n => .ok n.toNat
  | none => .error (if difference = .nan then .notANumber else .infinite)

end Stopwatch

end TreeLint
