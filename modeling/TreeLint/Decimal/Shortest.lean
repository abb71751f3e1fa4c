import TreeLint.Decimal.Binary64

/-!
# The shortest decimal of a double

Among the decimals that round to a double the one with the fewest digits is chosen, and of those
the one nearest to the double.  The search goes through the grids of one, two, ... seventeen
significant digits and tests the two grid points next to the double; seventeen digits always
suffice.
-/

namespace TreeLint.Decimal

open Binary64 (twoPow tenPow)

/-- `digits * 10 ^ exponent`. -/
structure Scientific where
  digits : Nat
  exponent : Int
  deriving DecidableEq, Repr

/-- Drops trailing zeros, of which there are at most `fuel`. -/
def Scientific.strip : Nat → Scientific → Scientific
  | 0, s => s
  | fuel + 1, s =>
    if s.digits ≠ 0 ∧ s.digits % 10 = 0 then strip fuel ⟨s.digits / 10, s.exponent + 1⟩ else s

/-- `num * 2 ^ binary` against `c * 10 ^ decimal`, brought to a common scale. -/
def scaledPair (num : Nat) (binary : Int) (c : Nat) (decimal : Int) : Nat × Nat :=
  (num * twoPow binary.toNat * tenPow (-decimal).toNat,
    c * tenPow decimal.toNat * twoPow (-binary).toNat)

/-- `num * 2 ^ binary / 10 ^ decimal`, rounded down. -/
def gridFloor (num : Nat) (binary decimal : Int) : Nat :=
  let pair := scaledPair num binary 1 decimal
  pair.1 / pair.2

/-- The exponent of the leading decimal digit of `num * 2 ^ binary`, for a positive `num`. -/
def leadingExponent (num : Nat) (binary : Int) : Int :=
  let guess := Int.fdiv (((Nat.log2 num : Int) + binary) * 30103) 100000 - 1
  if gridFloor num binary (guess + 2) ≠ 0 then guess + 2
  else if gridFloor num binary (guess + 1) ≠ 0 then guess + 1
  else guess

/-- The decimals that round to `mantissa * 2 ^ exponent`, as an interval in quarter units.  Its ends
belong to it when the mantissa is even. -/
structure Interval where
  low : Nat
  centre : Nat
  high : Nat
  unit : Int
  closed : Bool

def interval (mantissa : Nat) (exponent : Int) : Interval where
  low := 4 * mantissa -
    (if mantissa = twoPow 52 ∧ Binary64.minExponent < exponent then 1 else 2)
  centre := 4 * mantissa
  high := 4 * mantissa + 2
  unit := exponent - 2
  closed := mantissa % 2 == 0

def Interval.contains (i : Interval) (c : Nat) (decimal : Int) : Bool :=
  let low := scaledPair i.low i.unit c decimal
  let high := scaledPair i.high i.unit c decimal
  if i.closed then low.1 ≤ low.2 && high.2 ≤ high.1
  else low.1 < low.2 && high.2 < high.1

/-- Of two grid points inside the interval the nearer one, the even one when they are equally
near. -/
def Interval.nearer (i : Interval) (c : Nat) (decimal : Int) : Nat :=
  let below := scaledPair i.centre i.unit c decimal
  let above := scaledPair i.centre i.unit (c + 1) decimal
  let toBelow := below.1 - below.2
  let toAbove := above.2 - above.1
  if toBelow < toAbove then c
  else if toAbove < toBelow then c + 1
  else if c % 2 = 0 then c else c + 1

/-- The grid point with the given number of significant digits that lies in the interval, if
there is one. -/
def Interval.onGrid? (i : Interval) (leading : Int) (count : Nat) : Option Scientific :=
  let decimal := leading - count + 1
  let c := gridFloor i.centre i.unit decimal
  match i.contains c decimal, i.contains (c + 1) decimal with
  | true, true => some ⟨i.nearer c decimal, decimal⟩
  | true, false => some ⟨c, decimal⟩
  | false, true => some ⟨c + 1, decimal⟩
  | false, false => none

/-- The shortest decimal that rounds to `mantissa * 2 ^ exponent`. -/
def shortest (mantissa : Nat) (exponent : Int) : Scientific :=
  if mantissa = 0 then ⟨0, 0⟩
  else
    let i := interval mantissa exponent
    let leading := leadingExponent i.centre i.unit
    match ((List.range 17).map (· + 1)).findSome? (i.onGrid? leading) with
    | some s => s.strip 20
    | none => ⟨gridFloor i.centre i.unit (leading - 16), leading - 16⟩

/-- How a decimal is laid out: positionally when the exponent of its leading digit is at least
`least` and below `beyond`, and with an exponent of at least `width` digits otherwise. -/
structure Layout where
  least : Int
  beyond : Int
  width : Nat

/-- Positional from 0.0001 up to sixteen digits before the point. -/
def standard : Layout := ⟨-4, 16, 2⟩

def zeros (n : Nat) : String := String.ofList (List.replicate n '0')

def exponentText (layout : Layout) (e : Int) : String :=
  let digits := toString e.natAbs
  (if e < 0 then "e-" else "e+") ++ zeros (layout.width - digits.length) ++ digits

def Layout.write (layout : Layout) (s : Scientific) : String :=
  let digits := Nat.toDigits 10 s.digits
  let count : Int := digits.length
  let leading := s.exponent + count - 1
  if s.digits ≠ 0 ∧ (leading < layout.least ∨ layout.beyond ≤ leading) then
    let mantissa :=
      match digits with
      | [] => ""
      | [d] => String.ofList [d]
      | d :: rest => String.ofList (d :: '.' :: rest)
    mantissa ++ exponentText layout leading
  else if 0 ≤ s.exponent then String.ofList digits ++ zeros s.exponent.toNat ++ ".0"
  else if 0 ≤ leading then
    let whole := (leading + 1).toNat
    String.ofList (digits.take whole) ++ "." ++ String.ofList (digits.drop whole)
  else "0." ++ zeros (-leading - 1).toNat ++ String.ofList digits

end TreeLint.Decimal

namespace TreeLint

/-- The shortest text that reads back as the same double. -/
def Binary64.text : Binary64 → String
  | .nan => "nan"
  | .infinite negative => if negative then "-inf" else "inf"
  | .finite negative m e =>
    (if negative then "-" else "") ++ Decimal.standard.write (Decimal.shortest m e)

end TreeLint
