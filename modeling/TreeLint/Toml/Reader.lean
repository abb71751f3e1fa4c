import TreeLint.Toml.Scalar
import TreeLint.Toml.Table

/-!
# Reading TOML

A document is a sequence of statements, one a line: a key with its value, the header of a table, or
the header of the next table of an array.  A name can be set once, a table can be opened once, and
what was written as a value cannot be extended.
-/

namespace TreeLint.Toml

/-- Whether a value is a table or an array, which later statements may not extend. -/
def isContainer : Value → Bool
  | .list _ | .table _ => true
  | _ => false

def firstWord? (words : List (String × Value)) (cs : List Char) : Option (Value × List Char) :=
  words.findSome? fun (word, v) =>
    if startsWith word.toList cs then some (v, cs.drop word.length) else none

/-- A truth value, a date, a number or a float word. -/
def readPlain (cs : List Char) : Outcome Value :=
  match firstWord? [("true", .bool true), ("false", .bool false)] cs with
  | some found => .ok found
  | none =>
    match moment? cs with
    | .error fault => .error fault
    | .ok (some found) => .ok found
    | .ok none =>
      match based? cs with
      | some found => .ok found
      | none =>
        match decimal? cs with
        | .error fault => .error fault
        | .ok (some found) => .ok found
        | .ok none =>
          match firstWord? wordFloats cs with
          | some found => .ok found
          | none => .error .malformed

/-- What follows the equals sign after a key. -/
def afterEquals (cs : List Char) : Except Fault (List Char) :=
  match skipSpaces cs with
  | '=' :: rest => .ok (skipSpaces rest)
  | _ => .error .malformed

/-- The room that values have to be nested in. -/
def nestingRoom : Nat := 988

/-- The room that an array takes of it. -/
def arrayRoom : Nat := 2

/-- The room that a table on one line takes of it. -/
def inlineRoom : Nat := 3

mutual

/-- The value at the front of a text, with some room left for values inside it. -/
def readValue (fuel room : Nat) (cs : List Char) : Outcome Value :=
  match fuel with
  | 0 => .error .malformed
  | fuel + 1 =>
    match cs with
    | [] => .error .malformed
    | c :: rest =>
      if c = '\x22' ∨ c = '\x27' then
        (readString false cs).map fun (s, rest') => (.str s, rest')
      else if c = '[' then
        if room < arrayRoom then .error .tooDeep else
        match skipFiller (rest.length + 1) rest with
        | .error fault => .error fault
        | .ok (']' :: rest') => .ok (.list [], rest')
        | .ok rest' => readItems fuel (room - arrayRoom) [] rest'
      else if c = '\x7b' then
        if room < inlineRoom then .error .tooDeep else
        match skipSpaces rest with
        | '\x7d' :: rest' => .ok (.table [], rest')
        | rest' => readInline fuel (room - inlineRoom) [] [] rest'
      else readPlain cs

/-- The items of an array from the next one on; a comma may follow the last one. -/
def readItems (fuel room : Nat) (done : List Value) (cs : List Char) : Outcome Value :=
  match fuel with
  | 0 => .error .malformed
  | fuel + 1 =>
    match readValue fuel room cs with
    | .error fault => .error fault
    | .ok (v, rest) =>
      match skipFiller (rest.length + 1) rest with
      | .error fault => .error fault
      | .ok (']' :: rest') => .ok (.list (v :: done).reverse, rest')
      | .ok (',' :: rest') =>
        match skipFiller (rest'.length + 1) rest' with
        | .error fault => .error fault
        | .ok (']' :: rest'') => .ok (.list (v :: done).reverse, rest'')
        | .ok rest'' => readItems fuel room (v :: done) rest''
      | .ok _ => .error .malformed

/-- The members of a table on one line, from the next one on. -/
def readInline (fuel room : Nat) (marks : Marks) (done : Fields) (cs : List Char) :
    Outcome Value :=
  match fuel with
  | 0 => .error .malformed
  | fuel + 1 =>
    match readKey cs with
    | .error fault => .error fault
    | .ok (key, rest) =>
      match afterEquals rest with
      | .error fault => .error fault
      | .ok rest =>
        match readValue fuel room rest with
        | .error fault => .error fault
        | .ok (v, rest) =>
          if marks.has key .frozen then .error .malformed
          else
            match changeAt false (insertNew (key.getLastD "") v) key.dropLast done with
            | none => .error .malformed
            | some done =>
              match skipSpaces rest with
              | '\x7d' :: rest' => .ok (.table done, rest')
              | ',' :: rest' =>
                let marks := if isContainer v then ⟨key, .frozen, true⟩ :: marks else marks
                readInline fuel room marks done (skipSpaces rest')
              | _ => .error .malformed

end

/-! ## Statements -/

structure State where
  table : Fields := []
  marks : Marks := []
  /-- Keys of tables made by dotted keys; they are closed when the next header comes. -/
  pending : List Key := []
  header : Key := []

namespace State

/-- The tables above the last part of a dotted key, outermost first. -/
def containers (header key : Key) : List Key :=
  (List.range key.length).tail.map fun n => header ++ key.take n

def setKey (state : State) (key : Key) (v : Value) : Except Fault State :=
  let above := containers state.header key
  let place := state.header ++ key.dropLast
  if above.any (state.marks.has · .opened) || state.marks.has place .frozen then
    .error .malformed
  else
    match changeAt true (insertNew (key.getLastD "") v) place state.table with
    | none => .error .malformed
    | some table =>
      let marks :=
        if isContainer v then ⟨state.header ++ key, .frozen, true⟩ :: state.marks
        else state.marks
      .ok { state with table := table, marks := marks, pending := state.pending ++ above }

/-- Closes the tables that dotted keys made. -/
def settle (state : State) : State :=
  { state with
    marks := state.pending.map (fun key => ⟨key, .opened, false⟩) ++ state.marks
    pending := [] }

def openTable (state : State) (key : Key) : Except Fault State :=
  if state.marks.has key .opened || state.marks.has key .frozen then .error .malformed
  else
    match changeAt true some key state.table with
    | none => .error .malformed
    | some table =>
      .ok { state with table := table, marks := ⟨key, .opened, false⟩ :: state.marks, header := key }

def openNext (state : State) (key : Key) : Except Fault State :=
  if state.marks.has key .frozen then .error .malformed
  else
    match changeAt true (appendTable (key.getLastD "")) key.dropLast state.table with
    | none => .error .malformed
    | some table =>
      .ok { state with
        table := table
        marks := ⟨key, .opened, false⟩ :: state.marks.clear key
        header := key }

end State

def readHeader (state : State) (cs : List Char) : Outcome State :=
  match readKey (skipSpaces cs) with
  | .error fault => .error fault
  | .ok (key, rest) =>
    match state.openTable key with
    | .error fault => .error fault
    | .ok state =>
      match rest with
      | ']' :: rest' => .ok (state, rest')
      | _ => .error .malformed

def readNextHeader (state : State) (cs : List Char) : Outcome State :=
  match readKey (skipSpaces cs) with
  | .error fault => .error fault
  | .ok (key, rest) =>
    match state.openNext key with
    | .error fault => .error fault
    | .ok state =>
      match rest with
      | ']' :: ']' :: rest' => .ok (state, rest')
      | _ => .error .malformed

def readAssignment (state : State) (cs : List Char) : Outcome State :=
  match readKey cs with
  | .error fault => .error fault
  | .ok (key, rest) =>
    match afterEquals rest with
    | .error fault => .error fault
    | .ok rest =>
      match readValue (2 * rest.length + 2) nestingRoom rest with
      | .error fault => .error fault
      | .ok (v, rest) => (state.setKey key v).map (·, rest)

/-- One statement, from its first character on. -/
def readStatement (state : State) (cs : List Char) : Outcome State :=
  match cs with
  | '#' :: _ => .ok (state, cs)
  | '[' :: '[' :: rest => readNextHeader state.settle rest
  | '[' :: rest => readHeader state.settle rest
  | c :: _ =>
    if isBareKey c || c == '\x22' || c == '\x27' then readAssignment state cs
    else .error .malformed
  | [] => .ok (state, [])

/-- At most `fuel` lines. -/
def readLines : Nat → State → List Char → Except Fault Fields
  | 0, state, _ => .ok state.table
  | fuel + 1, state, cs =>
    match skipSpaces cs with
    | [] => .ok state.table
    | '\n' :: rest => readLines fuel state rest
    | cs =>
      match readStatement state cs with
      | .error fault => .error fault
      | .ok (state, rest) =>
        match skipComment (skipSpaces rest) with
        | .error fault => .error fault
        | .ok [] => .ok state.table
        | .ok ('\n' :: rest) => readLines fuel state rest
        | .ok _ => .error .malformed

/-- A carriage return before a newline is dropped. -/
def dropReturns : List Char → List Char
  | [] => []
  | '\r' :: '\n' :: rest => '\n' :: dropReturns rest
  | c :: rest => c :: dropReturns rest

/-- The table that a document describes. -/
def read (text : List Char) : Except Fault Fields :=
  readLines (text.length + 1) {} (dropReturns text)

end TreeLint.Toml
