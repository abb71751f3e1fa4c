import TreeLint.Text.Trim
import TreeLint.Text.LetterCase

/-!
# Integers as people type them

A numeral may be surrounded by blanks, may carry a sign, and may group its digits with single
underscores.  Every decimal digit of Unicode counts, whatever its script.
-/

namespace TreeLint.Text

/-- The zeros of the decimal digit rows; the other nine digits of a row follow its zero. -/
def digitZeros : List Nat := [
  0x30, 0x660, 0x6F0, 0x7C0, 0x966, 0x9E6, 0xA66, 0xAE6, 0xB66, 0xBE6, 0xC66, 0xCE6, 0xD66,
  0xDE6, 0xE50, 0xED0, 0xF20, 0x1040, 0x1090, 0x17E0, 0x1810, 0x1946, 0x19D0, 0x1A80, 0x1A90,
  0x1B50, 0x1BB0, 0x1C40, 0x1C50, 0xA620, 0xA8D0, 0xA900, 0xA9D0, 0xA9F0, 0xAA50, 0xABF0,
  0xFF10, 0x104A0, 0x10D30, 0x11066, 0x110F0, 0x11136, 0x111D0, 0x112F0, 0x11450, 0x114D0,
  0x11650, 0x116C0, 0x11730, 0x118E0, 0x11950, 0x11C50, 0x11D50, 0x11DA0, 0x16A60, 0x16AC0,
  0x16B50, 0x1D7CE, 0x1D7D8, 0x1D7E2, 0x1D7EC, 0x1D7F6, 0x1E140, 0x1E2F0, 0x1E950, 0x1FBF0]

def digitValue? (c : Char) : Option Nat :=
  (digitZeros.find? fun start => start ≤ c.toNat && c.toNat < start + 10).map (c.toNat - ·)

def blankRanges : List (Nat × Nat) := [
  (0x9, 0xD), (0x20, 0x20), (0x85, 0x85), (0xA0, 0xA0), (0x1680, 0x1680), (0x2000, 0x200A),
  (0x2028, 0x2029), (0x202F, 0x202F), (0x205F, 0x205F), (0x3000, 0x3000)]

def isBlank (c : Char) : Bool := inRanges blankRanges c.toNat

/-- The values of a run of digits in which single underscores may separate two digits. -/
def digitRun? : List Char → Option (List Nat)
  | [] => none
  | [c] => (digitValue? c).map ([·])
  | c :: '_' :: rest => do
    let d ← digitValue? c
    let ds ← digitRun? rest
    return d :: ds
  | c :: rest => do
    let d ← digitValue? c
    let ds ← digitRun? rest
    return d :: ds

def ofDigits (digits : List Nat) : Nat := digits.foldl (fun n d => 10 * n + d) 0

/-- More digits than this are refused when an integer is read. -/
def maxDigits : Nat := 4300

/-- The words for an integer with too many digits. -/
def tooManyDigitsText (count : Nat) : String :=
  "Exceeds the limit (" ++ toString maxDigits
    ++ " digits) for integer string conversion: value has " ++ toString count
    ++ " digits; use sys.set_int_max_str_digits() to increase the limit"

/-- Whether an integer has few enough digits to be written out. -/
@[irreducible] def isWritable (n : Int) : Bool := n.natAbs < Nat.pow 10 maxDigits

/-- Why something has no text: an integer in it has too many digits to be written out. -/
inductive Unwritable where
  | tooManyDigits
  deriving DecidableEq, Repr

def Unwritable.message : Unwritable → String
  | .tooManyDigits =>
    "Exceeds the limit (" ++ toString maxDigits
      ++ " digits) for integer string conversion; use sys.set_int_max_str_digits() to increase the limit"

/-- The decimal digits of an integer, after its sign. -/
def written (n : Int) : Except Unwritable String :=
  if isWritable n then .ok (toString n) else .error .tooManyDigits

theorem written_of_isWritable {n : Int} (h : isWritable n = true) : written n = .ok (toString n) :=
  if_pos h

/-- Whether an integer fits into a machine word of 64 bits with a sign. -/
def fitsWord (n : Int) : Bool := -9223372036854775808 ≤ n && n ≤ 9223372036854775807

/-- The words for an integer that does not fit into a machine word. -/
def tooWideText : String := "cannot fit 'int' into an index-sized integer"

def natural? (text : List Char) : Option Nat := do
  let digits ← digitRun? text
  if digits.length ≤ maxDigits then some (ofDigits digits) else none

def integer? (text : String) : Option Int :=
  match trim isBlank text.toList with
  | '-' :: digits => (natural? digits).map fun n => -(n : Int)
  | '+' :: digits => (natural? digits).map fun n => (n : Int)
  | digits => (natural? digits).map fun n => (n : Int)

end TreeLint.Text
