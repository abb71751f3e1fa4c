import TreeLint.Decimal.Shortest
import TreeLint.Text.Hex
import TreeLint.Value.Display

/-!
# Writing JSON

Text is written in ASCII: other characters, and those that a style marks as unsafe, become escapes.
A style also fixes whether the document is spread over lines.

`Style.layout` says how a document is set.  `Style.write` sets it, unless it cannot be written at
all: an integer in it has too many digits, or the indentation does not fit into a machine word.
-/

namespace TreeLint.Json

/-- How the members of arrays and objects are separated.  Lines with a negative indentation are not
indented. -/
inductive Spread where
  | oneLine
  | lines (indent : Int)
  deriving DecidableEq, Repr

structure Style where
  spread : Spread
  /-- Printable ASCII that is written as an escape all the same. -/
  guarded : List Char

/-- With the least escaping. -/
def Style.bare (spread : Spread) : Style := ⟨spread, []⟩

/-- Everything on one line. -/
def Style.plain : Style := .bare .oneLine

def unicodeEscape (capital : Bool) (code : Nat) : List Char :=
  '\\' :: 'u' :: Text.Hex.digits capital 4 code

/-- One character inside a string. -/
def Style.escape (style : Style) (c : Char) : List Char :=
  if style.guarded.contains c then unicodeEscape true c.toNat
  else if c = '\x22' then ['\\', '\x22']
  else if c = '\\' then ['\\', '\\']
  else if c = '\n' then ['\\', 'n']
  else if c = '\r' then ['\\', 'r']
  else if c = '\t' then ['\\', 't']
  else if c = '\x08' then ['\\', 'b']
  else if c = '\x0c' then ['\\', 'f']
  else if c.toNat < 0x20 then unicodeEscape false c.toNat
  else if c.toNat < 0x7F then [c]
  else if c.toNat < 0x10000 then unicodeEscape false c.toNat
  else
    let pair := c.toNat - 0x10000
    unicodeEscape false (0xD800 + pair / 0x400) ++ unicodeEscape false (0xDC00 + pair % 0x400)

def Style.string (style : Style) (s : String) : List Char :=
  '\x22' :: s.toList.flatMap style.escape ++ ['\x22']

/-- A line break and the indentation of a level. -/
def Style.newline (style : Style) (level : Nat) : List Char :=
  match style.spread with
  | .oneLine => []
  | .lines indent => '\n' :: List.replicate (indent.toNat * level) ' '

/-- What stands between two members at a level. -/
def Style.separator (style : Style) (level : Nat) : List Char :=
  match style.spread with
  | .oneLine => [',', ' ']
  | .lines _ => ',' :: style.newline level

def floatText : Binary64 → String
  | .nan => "NaN"
  | .infinite negative => if negative then "-Infinity" else "Infinity"
  | x => x.text

mutual

def Style.layout (style : Style) (level : Nat) : Value → List Char
  | .null => "null".toList
  | .bool true => "true".toList
  | .bool false => "false".toList
  | .int n => (toString n).toList
  | .float x => (floatText x).toList
  | .str s => style.string s
  | .moment m => style.string m.text
  | .list [] => ['[', ']']
  | .list (v :: rest) =>
    '[' :: style.newline (level + 1) ++ style.layout (level + 1) v
      ++ style.layoutItems (level + 1) rest ++ style.newline level ++ [']']
  | .table [] => ['\x7b', '\x7d']
  | .table ((name, v) :: rest) =>
    '\x7b' :: style.newline (level + 1) ++ style.string name ++ [':', ' ']
      ++ style.layout (level + 1) v ++ style.layoutMembers (level + 1) rest ++ style.newline level
      ++ ['\x7d']

def Style.layoutItems (style : Style) (level : Nat) : List Value → List Char
  | [] => []
  | v :: rest => style.separator level ++ style.layout level v ++ style.layoutItems level rest

def Style.layoutMembers (style : Style) (level : Nat) : List (String × Value) → List Char
  | [] => []
  | (name, v) :: rest =>
    style.separator level ++ style.string name ++ [':', ' '] ++ style.layout level v
      ++ style.layoutMembers level rest

end

/-- Why a document is not written. -/
inductive WriteFault where
  | indentTooLarge
  | unwritable
  deriving DecidableEq, Repr

def WriteFault.message : WriteFault → String
  | .indentTooLarge => Text.tooWideText
  | .unwritable => Text.Unwritable.tooManyDigits.message

def Spread.fits : Spread → Bool
  | .oneLine => true
  | .lines indent => Text.fitsWord indent

/-- The text of a document. -/
def Style.write (style : Style) (v : Value) : Except WriteFault String :=
  if !style.spread.fits then .error .indentTooLarge
  else if !v.isWritable then .error .unwritable
  else .ok (String.ofList (style.layout 0 v))

end TreeLint.Json
