/-!
# Double-precision numbers

A double is a sign, a mantissa below `2 ^ 53` and a power of two, or one of the special values.
Finite doubles are kept in the one form in which the mantissa is at least `2 ^ 52` unless the
exponent is the least one.  Every operation computes the exact rational result and rounds it once,
to the nearest double and to the even mantissa when two are equally near.
-/

namespace TreeLint

inductive Binary64 where
  | nan
  | infinite (negative : Bool)
  | finite (negative : Bool) (mantissa : Nat) (exponent : Int)
  deriving DecidableEq, Repr

namespace Binary64

def twoPow (n : Nat) : Nat := Nat.pow 2 n

def tenPow (n : Nat) : Nat := Nat.pow 10 n

def minExponent : Int := -1074

def maxExponent : Int := 971

/-- The quotient rounded to the nearest integer, a half to the even one. -/
def roundDiv (num den : Nat) : Nat :=
  let q := num / den
  let r := num % den
  if 2 * r < den then q
  else if den < 2 * r then q + 1
  else if q % 2 = 0 then q else q + 1

/-- `num / (den * 2 ^ exponent)` as a quotient of natural numbers. -/
def scaled (num den : Nat) (exponent : Int) : Nat × Nat :=
  (num * twoPow (-exponent).toNat, den * twoPow exponent.toNat)

def zero (negative : Bool) : Binary64 := .finite negative 0 minExponent

/-- The double nearest to `num / den`. -/
def ofRatio (negative : Bool) (num den : Nat) : Binary64 :=
  if num = 0 ∨ den = 0 then zero negative
  else
    let guess : Int := (Nat.log2 num : Int) - Nat.log2 den - 52
    let wide := scaled num den guess
    let exponent := max minExponent (if wide.1 / wide.2 < twoPow 52 then guess - 1 else guess)
    let ratio := scaled num den exponent
    let mantissa := roundDiv ratio.1 ratio.2
    if mantissa = twoPow 53 then
      if maxExponent ≤ exponent then .infinite negative
      else .finite negative (twoPow 52) (exponent + 1)
    else if maxExponent < exponent then .infinite negative
    else .finite negative mantissa exponent

/-- The double nearest to `digits * 10 ^ exponent`.  Decimals far outside the range are settled by
their magnitude alone. -/
def ofDecimal (negative : Bool) (digits : Nat) (exponent : Int) : Binary64 :=
  let magnitude : Int := (Nat.toDigits 10 digits).length + exponent
  if digits = 0 then zero negative
  else if 400 < magnitude then .infinite negative
  else if magnitude < -400 then zero negative
  else ofRatio negative (digits * tenPow exponent.toNat) (tenPow (-exponent).toNat)

/-- The double nearest to an integer. -/
def ofInt (n : Int) : Binary64 := ofRatio (n < 0) n.natAbs 1

/-- The double nearest to an integer, unless the integer is too large for one. -/
def ofInt? (n : Int) : Option Binary64 :=
  match ofInt n with
  | .infinite _ => none
  | x => some x

/-- The double nearest to `n * 2 ^ exponent`, with the given sign when that is zero. -/
def ofScaled (zeroNegative : Bool) (n : Int) (exponent : Int) : Binary64 :=
  if n = 0 then zero zeroNegative
  else ofRatio (n < 0) (n.natAbs * twoPow exponent.toNat) (twoPow (-exponent).toNat)

def signed (negative : Bool) (mantissa : Nat) : Int := if negative then -mantissa else mantissa

def mul : Binary64 → Binary64 → Binary64
  | .nan, _ => .nan
  | _, .nan => .nan
  | .infinite s, .infinite t => .infinite (s != t)
  | .infinite s, .finite t m _ => if m = 0 then .nan else .infinite (s != t)
  | .finite s m _, .infinite t => if m = 0 then .nan else .infinite (s != t)
  | .finite s m e, .finite t n f => ofScaled (s != t) (signed (s != t) (m * n)) (e + f)

def sub : Binary64 → Binary64 → Binary64
  | .nan, _ => .nan
  | _, .nan => .nan
  | .infinite s, .infinite t => if s = t then .nan else .infinite s
  | .infinite s, .finite _ _ _ => .infinite s
  | .finite _ _ _, .infinite t => .infinite (!t)
  | .finite s m e, .finite t n f =>
    let least := min e f
    let difference :=
      signed s (m * twoPow (e - least).toNat) - signed t (n * twoPow (f - least).toNat)
    ofScaled (s && !t) difference least

def neg : Binary64 → Binary64
  | .nan => .nan
  | .infinite s => .infinite (!s)
  | .finite s m e => .finite (!s) m e

def add (x y : Binary64) : Binary64 := x.sub y.neg

/-- The number that a finite double is. -/
def toRat? : Binary64 → Option Rat
  | .finite s m e => some (mkRat (signed s (m * twoPow e.toNat)) (twoPow (-e).toNat))
  | _ => none

/-- A finite double rounded to the nearest integer, a half to the even one. -/
def round? : Binary64 → Option Int
  | .finite s m e => some (signed s (roundDiv (m * twoPow e.toNat) (twoPow (-e).toNat)))
  | _ => none

/-- Whether the number is zero, of either sign. -/
def isZero : Binary64 → Bool
  | .finite _ m _ => m == 0
  | _ => false

end Binary64

end TreeLint
