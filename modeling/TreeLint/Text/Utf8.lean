import TreeLint.Text.Hex

/-!
# Reading UTF-8

A decoder that walks the bytes once and, when they are not UTF-8, says which bytes are at fault and
why.  Inside a character the decoder remembers how many bytes are still owed and the range in which
the next one has to lie; that range alone excludes overlong forms, surrogates and code points
beyond the last one.
-/

namespace TreeLint.Text.Utf8

inductive Reason where
  | invalidStart
  | invalidContinuation
  | unexpectedEnd
  deriving DecidableEq, Repr

def Reason.text : Reason → String
  | .invalidStart => "invalid start byte"
  | .invalidContinuation => "invalid continuation byte"
  | .unexpectedEnd => "unexpected end of data"

/-- The `length` bytes from `start` on are no character; `lead` is the first of them. -/
structure Fault where
  start : Nat
  length : Nat
  lead : Nat
  reason : Reason
  deriving DecidableEq, Repr

def Fault.message (fault : Fault) : String :=
  let range :=
    if fault.length ≤ 1 then
      "byte 0x" ++ String.ofList (Hex.digits false 2 fault.lead) ++ " in position "
        ++ toString fault.start
    else
      "bytes in position " ++ toString fault.start ++ "-"
        ++ toString (fault.start + fault.length - 1)
  "'utf-8' codec can't decode " ++ range ++ ": " ++ fault.reason.text

/-- A character of which `taken` bytes have been read and `owed` are still to come. -/
structure Pending where
  lead : Nat
  taken : Nat
  owed : Nat
  low : Nat
  high : Nat
  code : Nat

/-- What a byte from 0x80 on opens, if it can open a character. -/
def opening? (b : Nat) : Option Pending :=
  if 0xC2 ≤ b ∧ b ≤ 0xDF then some ⟨b, 1, 1, 0x80, 0xBF, b - 0xC0⟩
  else if b = 0xE0 then some ⟨b, 1, 2, 0xA0, 0xBF, 0⟩
  else if b = 0xED then some ⟨b, 1, 2, 0x80, 0x9F, 0xD⟩
  else if 0xE1 ≤ b ∧ b ≤ 0xEF then some ⟨b, 1, 2, 0x80, 0xBF, b - 0xE0⟩
  else if b = 0xF0 then some ⟨b, 1, 3, 0x90, 0xBF, 0⟩
  else if 0xF1 ≤ b ∧ b ≤ 0xF3 then some ⟨b, 1, 3, 0x80, 0xBF, b - 0xF0⟩
  else if b = 0xF4 then some ⟨b, 1, 3, 0x80, 0x8F, 4⟩
  else none

/-- Decodes the bytes from `position` on; `done` holds the characters read so far, backwards. -/
def decodeFrom (position : Nat) (pending : Option Pending) (done : List Char) :
    List UInt8 → Except Fault (List Char)
  | [] =>
    match pending with
    | none => .ok done.reverse
    | some p => .error ⟨position - p.taken, p.taken, p.lead, .unexpectedEnd⟩
  | byte :: rest =>
    let b := byte.toNat
    match pending with
    | none =>
      if b < 0x80 then decodeFrom (position + 1) none (Char.ofNat b :: done) rest
      else
        match opening? b with
        | some p => decodeFrom (position + 1) (some p) done rest
        | none => .error ⟨position, 1, b, .invalidStart⟩
    | some p =>
      if p.low ≤ b ∧ b ≤ p.high then
        let code := 64 * p.code + (b - 0x80)
        if p.owed ≤ 1 then decodeFrom (position + 1) none (Char.ofNat code :: done) rest
        else
          decodeFrom (position + 1)
            (some ⟨p.lead, p.taken + 1, p.owed - 1, 0x80, 0xBF, code⟩) done rest
      else .error ⟨position - p.taken, p.taken, p.lead, .invalidContinuation⟩

def decode (bytes : ByteArray) : Except Fault (List Char) :=
  decodeFrom 0 none [] bytes.toList

def encode (text : String) : ByteArray := text.toUTF8

end TreeLint.Text.Utf8
