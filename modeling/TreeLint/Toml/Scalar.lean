import TreeLint.Text.Hex
import TreeLint.Text.Numeral
import TreeLint.Value.Basic

/-!
# Keys and scalars of TOML

The lexical part of TOML: blanks and comments, keys, the four kinds of strings, numbers, and dates
and times, which keep the text they were written as.  Every reader takes the remaining text and
gives back what it read together with the text after it.
-/

namespace TreeLint.Toml

inductive Fault where
  | malformed
  | tooManyDigits (count : Nat)
  | tooDeep
  deriving DecidableEq, Repr

abbrev Outcome (α : Type) := Except Fault (α × List Char)

def isSpace (c : Char) : Bool := c == ' ' || c == '\t'

def isSpaceOrNewline (c : Char) : Bool := isSpace c || c == '\n'

def skipSpaces (cs : List Char) : List Char := cs.dropWhile isSpace

def isControl (c : Char) : Bool := c.toNat < 0x20 || c.toNat == 0x7F

/-- Control characters are not allowed in text, the tab apart. -/
def isIllegal (c : Char) : Bool := isControl c && c != '\t'

/-- In text over several lines newlines are allowed too. -/
def isIllegalInLines (c : Char) : Bool := isIllegal c && c != '\n'

/-- Skips a comment up to the end of its line. -/
def skipComment (cs : List Char) : Except Fault (List Char) :=
  match cs with
  | '#' :: rest =>
    if (rest.takeWhile (· != '\n')).any isIllegal then .error .malformed
    else .ok (rest.dropWhile (· != '\n'))
  | _ => .ok cs

/-- Skips blanks, newlines and comments, of which there are at most `fuel`. -/
def skipFiller : Nat → List Char → Except Fault (List Char)
  | 0, cs => .ok cs
  | fuel + 1, cs =>
    match cs.dropWhile isSpaceOrNewline with
    | '#' :: rest => do skipFiller fuel (← skipComment ('#' :: rest))
    | rest => .ok rest

def startsWith (word : List Char) (cs : List Char) : Bool := word.isPrefixOf cs

/-! ## Strings -/

/-- The text up to `close` and what follows it; `illegal` characters are refused. -/
def readUntil (close : List Char) (illegal : Char → Bool) (done : List Char) :
    List Char → Outcome String
  | [] => .error .malformed
  | c :: rest =>
    if close.isPrefixOf (c :: rest) then
      .ok (String.ofList done.reverse, (c :: rest).drop close.length)
    else if illegal c then .error .malformed
    else readUntil close illegal (c :: done) rest

/-- The character with a code of `width` hexadecimal digits. -/
def readCode (width : Nat) (cs : List Char) : Outcome Char :=
  let digits := cs.take width
  match Text.Hex.number? digits with
  | some code =>
    if digits.length = width ∧ code.isValidChar then .ok (Char.ofNat code, cs.drop width)
    else .error .malformed
  | none => .error .malformed

def simpleEscape? (c : Char) : Option Char :=
  match c with
  | 'b' => some '\x08'
  | 't' => some '\t'
  | 'n' => some '\n'
  | 'f' => some '\x0c'
  | 'r' => some '\r'
  | '\x22' => some '\x22'
  | '\\' => some '\\'
  | _ => none

/-- An escape from after its backslash on: the characters it stands for and what follows.  Over
several lines a backslash at the end of a line takes the line end and the blanks after it away. -/
def readEscape (lines : Bool) (cs : List Char) : Outcome (List Char) :=
  match cs with
  | [] => .error .malformed
  | c :: rest =>
    if lines && isSpaceOrNewline c then
      match (c :: rest).dropWhile isSpace with
      | [] => .ok ([], [])
      | '\n' :: rest' => .ok ([], rest'.dropWhile isSpaceOrNewline)
      | _ => .error .malformed
    else if c = 'u' then (readCode 4 rest).map fun (d, rest') => ([d], rest')
    else if c = 'U' then (readCode 8 rest).map fun (d, rest') => ([d], rest')
    else
      match simpleEscape? c with
      | some d => .ok ([d], rest)
      | none => .error .malformed

/-- The rest of a string in double quotes.  Over several lines it ends with three quotes. -/
def readBasic (lines : Bool) : Nat → List Char → List Char → Outcome String
  | 0, _, _ => .error .malformed
  | _ + 1, _, [] => .error .malformed
  | fuel + 1, done, c :: rest =>
    if c = '\x22' then
      if !lines then .ok (String.ofList done.reverse, rest)
      else if startsWith ['\x22', '\x22'] rest then .ok (String.ofList done.reverse, rest.drop 2)
      else readBasic lines fuel (c :: done) rest
    else if c = '\\' then
      match readEscape lines rest with
      | .error fault => .error fault
      | .ok (added, rest') => readBasic lines fuel (added.reverse ++ done) rest'
    else if (if lines then isIllegalInLines c else isIllegal c) then .error .malformed
    else readBasic lines fuel (c :: done) rest

/-- Up to two more quotes belong to a string that three quotes ended. -/
def extraQuotes (quote : Char) : String × List Char → String × List Char
  | (s, a :: b :: rest) =>
    if a = quote then
      if b = quote then (s.push quote |>.push quote, rest) else (s.push quote, b :: rest)
    else (s, a :: b :: rest)
  | (s, [a]) => if a = quote then (s.push quote, []) else (s, [a])
  | (s, []) => (s, [])

/-- A newline right after the opening quotes is not part of the text. -/
def dropNewline (cs : List Char) : List Char :=
  match cs with
  | '\n' :: rest => rest
  | _ => cs

/-- A string in single quotes, from after the first quote on; `lines` when three quotes open it. -/
def readLiteral (lines : Bool) (cs : List Char) : Outcome String :=
  if lines then
    (readUntil ['\x27', '\x27', '\x27'] isIllegalInLines [] (dropNewline (cs.drop 2))).map
      (extraQuotes '\x27')
  else readUntil ['\x27'] isIllegal [] cs

/-- A string from its first quote on.  Three quotes open a text over several lines, unless `inKey`.
-/
def readString (inKey : Bool) (cs : List Char) : Outcome String :=
  match cs with
  | q :: rest =>
    let lines := !inKey && startsWith [q, q] rest
    if q = '\x27' then readLiteral lines rest
    else if q = '\x22' then
      if lines then
        (readBasic true (cs.length + 1) [] (dropNewline (rest.drop 2))).map (extraQuotes '\x22')
      else readBasic false (cs.length + 1) [] rest
    else .error .malformed
  | [] => .error .malformed

/-! ## Keys -/

abbrev Key := List String

def isBareKey (c : Char) : Bool := c.isAlphanum || c == '-' || c == '_'

def readKeyPart (cs : List Char) : Outcome String :=
  match cs with
  | [] => .error .malformed
  | c :: _ =>
    if isBareKey c then .ok (String.ofList (cs.takeWhile isBareKey), cs.dropWhile isBareKey)
    else readString true cs

/-- A key of at most `fuel` parts with dots between them; `done` holds the earlier parts. -/
def readKeyFrom : Nat → Key → List Char → Outcome Key
  | 0, _, _ => .error .malformed
  | fuel + 1, done, cs =>
    match readKeyPart cs with
    | .error fault => .error fault
    | .ok (part, rest) =>
      match skipSpaces rest with
      | '.' :: rest' => readKeyFrom fuel (done ++ [part]) (skipSpaces rest')
      | rest' => .ok (done ++ [part], rest')

def readKey (cs : List Char) : Outcome Key := readKeyFrom (cs.length + 1) [] cs

/-! ## Numbers -/

/-- A run of digits with single underscores between them, the underscores left out. -/
def digitRun (isDigit : Char → Bool) : List Char → List Char × List Char
  | [] => ([], [])
  | '_' :: c :: rest =>
    if isDigit c then
      let (digits, rest') := digitRun isDigit rest
      (c :: digits, rest')
    else ([], '_' :: c :: rest)
  | c :: rest =>
    if isDigit c then
      let (digits, rest') := digitRun isDigit rest
      (c :: digits, rest')
    else ([], c :: rest)

/-- A run of digits that starts with a digit. -/
def leadingDigits (isDigit : Char → Bool) (cs : List Char) : List Char × List Char :=
  match cs with
  | c :: _ => if isDigit c then digitRun isDigit cs else ([], cs)
  | [] => ([], [])

def digitOf (c : Char) : Nat := (Text.Hex.value? c).getD 0

def inBase (base : Nat) (digits : List Char) : Nat :=
  digits.foldl (fun n c => base * n + digitOf c) 0

/-- An integer with a base mark, such as `0x`. -/
def based? (cs : List Char) : Option (Value × List Char) :=
  let read (base : Nat) (isDigit : Char → Bool) (rest : List Char) :=
    match leadingDigits isDigit rest with
    | ([], _) => none
    | (digits, rest') => some (.int (inBase base digits), rest')
  match cs with
  | '0' :: 'x' :: rest => read 16 (fun c => (Text.Hex.value? c).isSome) rest
  | '0' :: 'o' :: rest => read 8 (fun c => '0' ≤ c && c ≤ '7') rest
  | '0' :: 'b' :: rest => read 2 (fun c => c == '0' || c == '1') rest
  | _ => none

def sign (cs : List Char) : Bool × List Char :=
  match cs with
  | '-' :: rest => (true, rest)
  | '+' :: rest => (false, rest)
  | _ => (false, cs)

def wholePart (cs : List Char) : List Char × List Char :=
  match cs with
  | '0' :: rest => (['0'], rest)
  | _ => leadingDigits Char.isDigit cs

def fractionPart (cs : List Char) : List Char × List Char :=
  match cs with
  | '.' :: rest =>
    match leadingDigits Char.isDigit rest with
    | ([], _) => ([], cs)
    | found => found
  | _ => ([], cs)

def exponentPart (cs : List Char) : Option Int × List Char :=
  match cs with
  | e :: rest =>
    if e = 'e' ∨ e = 'E' then
      let (negative, rest') := sign rest
      match leadingDigits Char.isDigit rest' with
      | ([], _) => (none, cs)
      | (digits, rest'') =>
        let n : Int := inBase 10 digits
        (some (if negative then -n else n), rest'')
    else (none, cs)
  | [] => (none, [])

/-- A decimal number; none when the text does not start with one. -/
def decimal? (cs : List Char) : Except Fault (Option (Value × List Char)) :=
  let (negative, rest) := sign cs
  match wholePart rest with
  | ([], _) => .ok none
  | (whole, rest) =>
    let (fraction, rest) := fractionPart rest
    let (exponent, rest) := exponentPart rest
    if fraction.isEmpty && exponent.isNone then
      if Text.maxDigits < whole.length then .error (.tooManyDigits whole.length)
      else
        let n : Int := inBase 10 whole
        .ok (some (.int (if negative then -n else n), rest))
    else
      .ok (some (.float (.ofDecimal negative (inBase 10 (whole ++ fraction))
        (exponent.getD 0 - fraction.length)), rest))

/-- The floats that are words. -/
def wordFloats : List (String × Value) :=
  [("inf", .float (.infinite false)), ("nan", .float .nan), ("-inf", .float (.infinite true)),
    ("+inf", .float (.infinite false)), ("-nan", .float .nan), ("+nan", .float .nan)]

/-! ## Dates and times -/

/-- A fixed number of digits whose value lies between two bounds. -/
def bounded? (width low high : Nat) (cs : List Char) : Option (Nat × List Char) :=
  let digits := cs.take width
  let n := inBase 10 digits
  if digits.length = width && digits.all Char.isDigit && low ≤ n && n ≤ high then
    some (n, cs.drop width)
  else none

def mark? (accepted : List Char) (cs : List Char) : Option (List Char) :=
  match cs with
  | c :: rest => if accepted.contains c then some rest else none
  | [] => none

/-- Hours, minutes and seconds with an optional fraction: what follows them. -/
def afterTime? (cs : List Char) : Option (List Char) := do
  let (_, rest) ← bounded? 2 0 23 cs
  let (_, rest) ← bounded? 2 0 59 (← mark? [':'] rest)
  let (_, rest) ← bounded? 2 0 59 (← mark? [':'] rest)
  match rest with
  | '.' :: d :: more => if d.isDigit then some (more.dropWhile Char.isDigit) else some rest
  | _ => some rest

/-- What follows an optional offset from universal time. -/
def afterOffset (cs : List Char) : List Char :=
  let offset : Option (List Char) := do
    let (_, rest) ← bounded? 2 0 23 (← mark? ['+', '-'] cs)
    let (_, rest) ← bounded? 2 0 59 (← mark? [':'] rest)
    return rest
  ((mark? ['Z', 'z'] cs) <|> offset).getD cs

def daysIn (year month : Nat) : Nat :=
  if month = 2 then
    if year % 4 = 0 ∧ (year % 100 ≠ 0 ∨ year % 400 = 0) then 29 else 28
  else if month = 4 ∨ month = 6 ∨ month = 9 ∨ month = 11 then 30
  else 31

/-- What a text that starts with a date holds. -/
structure Dated where
  /-- Whether the calendar has that day. -/
  real : Bool
  kind : MomentKind
  rest : List Char

/-- A date, with or without a time. -/
def dated? (cs : List Char) : Option Dated := do
  let (year, rest) ← bounded? 4 0 9999 cs
  let (month, rest) ← bounded? 2 1 12 (← mark? ['-'] rest)
  let (day, rest) ← bounded? 2 1 31 (← mark? ['-'] rest)
  let withTime : Option (List Char) := do
    return afterOffset (← afterTime? (← mark? ['T', 't', ' '] rest))
  let real := 1 ≤ year && day ≤ daysIn year month
  match withTime with
  | some rest => return ⟨real, .dateTime, rest⟩
  | none => return ⟨real, .date, rest⟩

/-- A date or time; none when the text does not start with one.  A day that the calendar does not
have is malformed. -/
def moment? (cs : List Char) : Except Fault (Option (Value × List Char)) :=
  let keep (kind : MomentKind) (rest : List Char) : Value × List Char :=
    (.moment ⟨kind, String.ofList (cs.take (cs.length - rest.length))⟩, rest)
  match dated? cs with
  | some found => if found.real then .ok (some (keep found.kind found.rest)) else .error .malformed
  | none => .ok ((afterTime? cs).map (keep .time))

end TreeLint.Toml
