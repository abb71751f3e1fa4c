import TreeLint.Text.Trim

/-!
# Matching without regard to case

Two characters match when they fold to the same one.  Besides the ASCII capitals, four characters
fold into the ASCII letters: the long s, the Kelvin sign, and the dotted capital and dotless small
i.  Patterns are written in lower-case ASCII, which folding leaves alone.
-/

namespace TreeLint.Text

def fold (c : Char) : Char :=
  match c.toNat with
  | 0x017F => 's'
  | 0x212A => 'k'
  | 0x0130 => 'i'
  | 0x0131 => 'i'
  | _ => c.toLower

/-- Whether `pattern`, in lower-case ASCII, occurs in `text` when case is ignored. -/
def occursCaseless (pattern text : String) : Bool :=
  occursIn pattern.toList (text.toList.map fold)

def isLetter (c : Char) : Bool := (fold c).isLower

/-- The characters that can begin an identifier. -/
def isNameStart (c : Char) : Bool := isLetter c || c == '_'

/-- The characters that can continue an identifier. -/
def isNameChar (c : Char) : Bool := isNameStart c || c.isDigit

end TreeLint.Text
