import TreeLint.Text.Hex
import TreeLint.Text.Printable

/-!
# Quoted text in messages

A text is shown between single quotes, or between double quotes when it has a single quote and no
double one.  The quote in use, backslashes and characters that do not print are escaped.
-/

namespace TreeLint.Text

def singleQuote : Char := '\x27'

def doubleQuote : Char := '\x22'

def quoteFor (text : List Char) : Char :=
  if text.contains singleQuote && !text.contains doubleQuote then doubleQuote else singleQuote

def escapeIn (quote : Char) (c : Char) : List Char :=
  if c = quote ∨ c = '\\' then ['\\', c]
  else if c = '\n' then ['\\', 'n']
  else if c = '\r' then ['\\', 'r']
  else if c = '\t' then ['\\', 't']
  else if isPrintable c then [c]
  else if c.toNat < 0x100 then '\\' :: 'x' :: Hex.digits false 2 c.toNat
  else if c.toNat < 0x10000 then '\\' :: 'u' :: Hex.digits false 4 c.toNat
  else '\\' :: 'U' :: Hex.digits false 8 c.toNat

def quoted (text : String) : String :=
  let quote := quoteFor text.toList
  String.ofList (quote :: text.toList.flatMap (escapeIn quote) ++ [quote])

end TreeLint.Text
