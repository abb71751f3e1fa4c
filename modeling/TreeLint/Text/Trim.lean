/-!
# Cutting and searching text

The few operations on character lists that the rest of the library is phrased in: cutting both
ends, the part after the last separator, and occurrence of one text in another.
-/

namespace TreeLint.Text

/-- `text` without the characters satisfying `p` at its two ends. -/
def trim (p : Char → Bool) (text : List Char) : List Char :=
  ((text.dropWhile p).reverse.dropWhile p).reverse

/-- What follows the last `separator`; all of `text` when there is none. -/
def lastSegment (separator : Char) (text : List Char) : List Char :=
  (text.reverse.takeWhile (· != separator)).reverse

/-- Whether `needle` occurs in a text as one contiguous piece. -/
def occursIn (needle : List Char) : List Char → Bool
  | [] => needle.isEmpty
  | c :: rest => needle.isPrefixOf (c :: rest) || occursIn needle rest

end TreeLint.Text
