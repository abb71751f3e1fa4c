/-!
# Line ends of text files

Reading a text file turns a carriage return, alone or before a newline, into one newline.
-/

namespace TreeLint.Text

def unifyNewlines : List Char → List Char
  | [] => []
  | '\r' :: '\n' :: rest => '\n' :: unifyNewlines rest
  | '\r' :: rest => '\n' :: unifyNewlines rest
  | c :: rest => c :: unifyNewlines rest

end TreeLint.Text
