/-!
# Documents inside markup

A written document is made fit for markup by a second pass over its text.  The pass knows nothing of
the document: it looks for string tokens, from left to right, and inside of them replaces quotes,
angle brackets and ampersands by escapes.  Everything outside of tokens stays as it is.
-/

namespace TreeLint.Json.Markup

/-- The body of a string token and what follows the token, from after its opening quote on.  A
backslash takes the next character along, unless that is a line break. -/
def token? : List Char → Option (List Char × List Char)
  | [] => none
  | c :: rest =>
    if c = '\x22' then some ([], rest)
    else if c = '\\' then
      match rest with
      | [] => none
      | e :: rest' =>
        if e = '\n' then none
        else (token? rest').map fun (body, after) => (c :: e :: body, after)
    else (token? rest).map fun (body, after) => (c :: body, after)

/-- The unsafe pieces of a token and the escapes that are written for them. -/
def replacements : List (List Char × List Char) :=
  [(['<'], ['\\', 'u', '0', '0', '3', 'C']), (['>'], ['\\', 'u', '0', '0', '3', 'E']),
    (['&'], ['\\', 'u', '0', '0', '2', '6']), (['\x27'], ['\\', 'u', '0', '0', '2', '7']),
    (['\\', '\x22'], ['\\', 'u', '0', '0', '2', '2'])]

def replace (piece : List Char) : List Char := (replacements.lookup piece).getD piece

/-- The body of a token with its unsafe pieces replaced.  A backslash and the character after it are
one piece. -/
def body : List Char → List Char
  | [] => []
  | c :: rest =>
    if c = '\\' then
      match rest with
      | [] => [c]
      | e :: rest' =>
        if e = '\n' then c :: e :: body rest' else replace [c, e] ++ body rest'
    else replace [c] ++ body rest

theorem token?_length {text inner after : List Char} (h : token? text = some (inner, after)) :
    after.length < text.length := by
  fun_induction token? text generalizing inner with
  | case1 => cases h
  | case2 rest =>
    cases h
    simp
  | case3 => cases h
  | case4 => cases h
  | case5 e rest' hbreak hquote ih =>
    obtain ⟨⟨inner', after'⟩, htoken, heq⟩ := Option.map_eq_some_iff.1 h
    cases heq
    have := ih htoken
    simp only [List.length_cons]
    omega
  | case6 c rest hquote hslash ih =>
    obtain ⟨⟨inner', after'⟩, htoken, heq⟩ := Option.map_eq_some_iff.1 h
    cases heq
    have := ih htoken
    simp only [List.length_cons]
    omega

/-- The text with the bodies of all its string tokens made safe. -/
def escape (text : List Char) : List Char :=
  match text with
  | [] => []
  | c :: rest =>
    if c = '\x22' then
      match _h : token? rest with
      | some (inner, after) => c :: body inner ++ c :: escape after
      | none => c :: escape rest
    else c :: escape rest
termination_by text.length
decreasing_by
  · have := token?_length _h
    simp only [List.length_cons]
    omega
  · simp
  · simp

end TreeLint.Json.Markup
