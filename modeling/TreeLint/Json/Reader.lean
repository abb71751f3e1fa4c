import TreeLint.Text.Hex
import TreeLint.Text.Numeral
import TreeLint.Value.Basic

/-!
# Reading JSON

A reader for JSON that also takes the constants `NaN`, `Infinity` and `-Infinity`.  When a name is
repeated in an object the last value counts.  A fault is reported with the place where the text
stopped being JSON; while reading, that place is kept as the number of characters that remain, so
no position has to be carried along.

Two bounds are arguments of the reader: the number of levels that a text may be nested, and the
number of digits that an integer may have.

Texts are texts of Unicode characters.  An escape of one half of a surrogate pair without the other
half stands for no character; the replacement character is put in its place, whichever half it is.
What is said about documents is therefore about those without such an escape: only there are names
that differ in the text sure to differ when they have been read.
-/

namespace TreeLint.Json

inductive Problem where
  | expectedValue
  | expectedName
  | expectedColon
  | expectedComma
  | extraData
  | unterminatedString
  | controlCharacter
  | invalidEscape
  | invalidUnicodeEscape
  | byteOrderMark
  deriving DecidableEq, Repr

def Problem.text : Problem → String
  | .expectedValue => "Expecting value"
  | .expectedName => "Expecting property name enclosed in double quotes"
  | .expectedColon => "Expecting ':' delimiter"
  | .expectedComma => "Expecting ',' delimiter"
  | .extraData => "Extra data"
  | .unterminatedString => "Unterminated string starting at"
  | .controlCharacter => "Invalid control character at"
  | .invalidEscape => "Invalid \\escape"
  | .invalidUnicodeEscape => "Invalid \\uXXXX escape"
  | .byteOrderMark => "Unexpected UTF-8 BOM (decode using utf-8-sig)"

/-- Why a text is not read.  `remaining` counts the characters from the fault to the end. -/
inductive Fault where
  | malformed (problem : Problem) (remaining : Nat)
  | tooDeep
  | tooManyDigits (count : Nat)
  deriving DecidableEq, Repr

/-- A fault at the first character of `rest`. -/
def stop (problem : Problem) (rest : List Char) : Fault := .malformed problem rest.length

def isBlank (c : Char) : Bool := c == ' ' || c == '\t' || c == '\n' || c == '\r'

def skipBlanks (cs : List Char) : List Char := cs.dropWhile isBlank

/-! ## Strings -/

def simpleEscape? (c : Char) : Option Char :=
  match c with
  | '\x22' => some '\x22'
  | '\\' => some '\\'
  | '/' => some '/'
  | 'b' => some '\x08'
  | 'f' => some '\x0c'
  | 'n' => some '\n'
  | 'r' => some '\r'
  | 't' => some '\t'
  | _ => none

def isHighSurrogate (code : Nat) : Bool := 0xD800 ≤ code && code < 0xDC00

def isLowSurrogate (code : Nat) : Bool := 0xDC00 ≤ code && code < 0xE000

def joinSurrogates (high low : Nat) : Nat := 0x10000 + (high - 0xD800) * 0x400 + (low - 0xDC00)

/-- The character of a code unit; one half of a pair on its own has none and is replaced. -/
def unitChar (code : Nat) : Char :=
  if isHighSurrogate code || isLowSurrogate code then Char.ofNat 0xFFFD else Char.ofNat code

/-- Reads the four digits after an escaping u.  At least one more character has to follow. -/
def codeUnit? : List Char → Option (Nat × List Char)
  | a :: b :: c :: d :: next :: rest =>
    (Text.Hex.number? [a, b, c, d]).map fun code => (code, next :: rest)
  | _ => none

theorem codeUnit?_length {cs rest : List Char} {code : Nat}
    (h : codeUnit? cs = some (code, rest)) : rest.length < cs.length := by
  unfold codeUnit? at h
  split at h
  · obtain ⟨_, _, hpair⟩ := Option.map_eq_some_iff.1 h
    cases hpair
    simp only [List.length_cons]
    omega
  · cases h

/-- The second half of a pair, when one follows in full and something follows it. -/
def lowHalf? : List Char → Option (Except Fault (Nat × List Char))
  | '\\' :: 'u' :: a :: b :: c :: d :: next :: rest =>
    match codeUnit? (a :: b :: c :: d :: next :: rest) with
    | none => some (.error (stop .invalidUnicodeEscape ('u' :: a :: b :: c :: d :: next :: rest)))
    | some (code, rest') => if isLowSurrogate code then some (.ok (code, rest')) else none
  | _ => none

theorem lowHalf?_length {cs rest : List Char} {code : Nat}
    (h : lowHalf? cs = some (.ok (code, rest))) : rest.length < cs.length := by
  unfold lowHalf? at h
  split at h
  · split at h
    · cases h
    · next hunit =>
      split at h
      · cases h
        have := codeUnit?_length hunit
        simp only [List.length_cons] at this ⊢
        omega
      · cases h
  · cases h

/-- Reads a string up to its closing quote.  `start` is the text from the opening quote on and
`done` the characters read so far, backwards. -/
def readString (start done : List Char) (cs : List Char) : Except Fault (String × List Char) :=
  match cs with
  | [] => .error (stop .unterminatedString start)
  | c :: rest =>
    if c = '\x22' then .ok (String.ofList done.reverse, rest)
    else if c = '\\' then
      match rest with
      | [] => .error (stop .unterminatedString start)
      | e :: rest' =>
        if e = 'u' then
          match _hunit : codeUnit? rest' with
          | none => .error (stop .invalidUnicodeEscape (e :: rest'))
          | some (code, more) =>
            if isHighSurrogate code then
              match _hlow : lowHalf? more with
              | some (.error fault) => .error fault
              | some (.ok (low, more')) =>
                readString start (Char.ofNat (joinSurrogates code low) :: done) more'
              | none => readString start (unitChar code :: done) more
            else readString start (unitChar code :: done) more
        else
          match simpleEscape? e with
          | some d => readString start (d :: done) rest'
          | none => .error (stop .invalidEscape (c :: rest))
    else if c.toNat < 0x20 then .error (stop .controlCharacter (c :: rest))
    else readString start (c :: done) rest
termination_by cs.length
decreasing_by
  · have := codeUnit?_length _hunit
    have := lowHalf?_length _hlow
    simp only [List.length_cons]
    omega
  · have := codeUnit?_length _hunit
    simp only [List.length_cons]
    omega
  · have := codeUnit?_length _hunit
    simp only [List.length_cons]
    omega
  · simp only [List.length_cons]
    omega
  · simp

/-! ## Numbers -/

/-- The longest run of digits a text starts with, and what follows it. -/
def digitSpan (cs : List Char) : List Char × List Char := cs.span Char.isDigit

/-- The digits of an integer part: a single zero, or digits that start with another one. -/
def integerPart (cs : List Char) : List Char × List Char :=
  match cs with
  | '0' :: rest => (['0'], rest)
  | _ => digitSpan cs

/-- The digits after a decimal point; none unless a digit follows the point. -/
def fractionPart (cs : List Char) : List Char × List Char :=
  match cs with
  | '.' :: rest =>
    match digitSpan rest with
    | ([], _) => ([], cs)
    | (digits, rest') => (digits, rest')
  | _ => ([], cs)

/-- An exponent: its sign and digits, when at least one digit is there. -/
def exponentPart (cs : List Char) : Option (Bool × List Char) × List Char :=
  let digitsAfter (negative : Bool) (rest : List Char) :=
    match digitSpan rest with
    | ([], _) => (none, cs)
    | (digits, rest') => (some (negative, digits), rest')
  match cs with
  | e :: rest =>
    if e = 'e' ∨ e = 'E' then
      match rest with
      | '+' :: rest' => digitsAfter false rest'
      | '-' :: rest' => digitsAfter true rest'
      | _ => digitsAfter false rest
    else (none, cs)
  | [] => (none, cs)

def digitsNat (digits : List Char) : Nat := Text.ofDigits (digits.map fun c => c.toNat - 0x30)

/-- Reads a number from its first digit on.  It is an integer unless it has a fraction or an
exponent; an integer of more than `digits` digits is refused. -/
def readNumber (digits : Nat) (negative : Bool) (cs : List Char) :
    Except Fault (Value × List Char) :=
  let (whole, rest) := integerPart cs
  let (fraction, rest) := fractionPart rest
  let (exponent, rest) := exponentPart rest
  if fraction.isEmpty && exponent.isNone then
    if digits < whole.length then .error (.tooManyDigits whole.length)
    else
      let n : Int := digitsNat whole
      .ok (.int (if negative then -n else n), rest)
  else
    let power : Int :=
      match exponent with
      | none => 0
      | some (true, power) => -(digitsNat power : Int)
      | some (false, power) => digitsNat power
    .ok (.float (.ofDecimal negative (digitsNat (whole ++ fraction)) (power - fraction.length)),
      rest)

/-- `rest` after `word`, when the text starts with it. -/
def afterWord? (word : String) (cs : List Char) : Option (List Char) :=
  if word.toList.isPrefixOf cs then some (cs.drop word.length) else none

/-- Reads a number, a constant or a word: everything but strings, arrays and objects. -/
def readScalar (digits : Nat) (cs : List Char) : Except Fault (Value × List Char) :=
  match cs with
  | [] => .error (stop .expectedValue cs)
  | c :: rest =>
    if c.isDigit then readNumber digits false cs
    else if c = '-' then
      match rest with
      | d :: _ =>
        if d.isDigit then readNumber digits true rest
        else
          match afterWord? "Infinity" rest with
          | some rest' => .ok (.float (.infinite true), rest')
          | none => .error (stop .expectedValue cs)
      | [] => .error (stop .expectedValue cs)
    else
      let words : List (String × Value) :=
        [("null", .null), ("true", .bool true), ("false", .bool false), ("NaN", .float .nan),
          ("Infinity", .float (.infinite false))]
      match words.findSome? fun (word, v) => (afterWord? word cs).map (v, ·) with
      | some result => .ok result
      | none => .error (stop .expectedValue cs)

/-! ## Values -/

mutual

/-- Reads one value.  `depth` is the number of levels that may still be opened; `fuel` exceeds the
number of steps that the text can take. -/
def readValue (digits fuel depth : Nat) (cs : List Char) : Except Fault (Value × List Char) :=
  match fuel with
  | 0 => .error (stop .expectedValue cs)
  | fuel + 1 =>
    match cs with
    | [] => .error (stop .expectedValue cs)
    | c :: rest =>
      if c = '\x22' then
        match readString cs [] rest with
        | .error fault => .error fault
        | .ok (s, rest') => .ok (.str s, rest')
      else if c = '[' then
        match depth with
        | 0 => .error .tooDeep
        | depth + 1 =>
          match skipBlanks rest with
          | ']' :: rest' => .ok (.list [], rest')
          | rest' => readItems digits fuel depth [] rest'
      else if c = '\x7b' then
        match depth with
        | 0 => .error .tooDeep
        | depth + 1 =>
          match skipBlanks rest with
          | '\x7d' :: rest' => .ok (.table [], rest')
          | rest' => readMembers digits fuel depth [] rest'
      else readScalar digits cs

/-- Reads the items of an array from the next one on; `done` holds the earlier ones, backwards. -/
def readItems (digits fuel depth : Nat) (done : List Value) (cs : List Char) :
    Except Fault (Value × List Char) :=
  match fuel with
  | 0 => .error (stop .expectedValue cs)
  | fuel + 1 =>
    match readValue digits fuel depth cs with
    | .error fault => .error fault
    | .ok (v, rest) =>
      match skipBlanks rest with
      | ']' :: rest' => .ok (.list (v :: done).reverse, rest')
      | ',' :: rest' => readItems digits fuel depth (v :: done) (skipBlanks rest')
      | rest' => .error (stop .expectedComma rest')

/-- Reads the members of an object from the next one on; `done` holds the earlier ones. -/
def readMembers (digits fuel depth : Nat) (done : Fields) (cs : List Char) :
    Except Fault (Value × List Char) :=
  match fuel with
  | 0 => .error (stop .expectedName cs)
  | fuel + 1 =>
    match cs with
    | '\x22' :: rest =>
      match readString cs [] rest with
      | .error fault => .error fault
      | .ok (name, rest) =>
        match skipBlanks rest with
        | ':' :: rest =>
          match readValue digits fuel depth (skipBlanks rest) with
          | .error fault => .error fault
          | .ok (v, rest) =>
            match skipBlanks rest with
            | '\x7d' :: rest' => .ok (.table (Fields.set name v done), rest')
            | ',' :: rest' =>
              readMembers digits fuel depth (Fields.set name v done) (skipBlanks rest')
            | rest' => .error (stop .expectedComma rest')
        | rest' => .error (stop .expectedColon rest')
    | _ => .error (stop .expectedName cs)

end

/-- Reads a text that holds one value and nothing else. -/
def read (depth digits : Nat) (cs : List Char) : Except Fault Value :=
  match cs with
  | '\uFEFF' :: _ => .error (stop .byteOrderMark cs)
  | _ =>
    match readValue digits (2 * cs.length + 2) depth (skipBlanks cs) with
    | .error fault => .error fault
    | .ok (v, rest) =>
      match skipBlanks rest with
      | [] => .ok v
      | rest' => .error (stop .extraData rest')

/-! ## Faults in words -/

/-- Line and column of an offset, both from one; only newlines end a line. -/
def position (text : List Char) (offset : Nat) : Nat × Nat :=
  let before := text.take offset
  (before.count '\n' + 1, (before.reverse.takeWhile (· != '\n')).length + 1)

/-- Where and why `text` stopped being JSON. -/
def Problem.message (problem : Problem) (text : List Char) (remaining : Nat) : String :=
  let offset := text.length - remaining
  let (line, column) := position text offset
  problem.text ++ ": line " ++ toString line ++ " column " ++ toString column
    ++ " (char " ++ toString offset ++ ")"

end TreeLint.Json
