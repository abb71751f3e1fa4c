/-!
# Hexadecimal digits
-/

namespace TreeLint.Text.Hex

def digit (capital : Bool) (n : Nat) : Char :=
  if n < 10 then Char.ofNat (0x30 + n)
  else Char.ofNat ((if capital then 0x41 else 0x61) + (n - 10))

/-- The lowest `width` digits of a number, the most significant first. -/
def digits (capital : Bool) : Nat → Nat → List Char
  | 0, _ => []
  | width + 1, n => digits capital width (n / 16) ++ [digit capital (n % 16)]

def value? (c : Char) : Option Nat :=
  if '0' ≤ c ∧ c ≤ '9' then some (c.toNat - 0x30)
  else if 'a' ≤ c ∧ c ≤ 'f' then some (c.toNat - 0x61 + 10)
  else if 'A' ≤ c ∧ c ≤ 'F' then some (c.toNat - 0x41 + 10)
  else none

/-- The number written by some digits, if all of them are digits. -/
def number? (text : List Char) : Option Nat :=
  text.foldl (fun n c => do return 16 * (← n) + (← value? c)) (some 0)

end TreeLint.Text.Hex
