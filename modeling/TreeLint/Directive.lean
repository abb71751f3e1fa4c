import TreeLint.Text.Caseless
import TreeLint.Text.Lowercase
import TreeLint.Text.Trim

/-!
# Directives in doc comments

A directive is a name after an at sign, followed by a value in parentheses.  The name has at least
two characters and the value at least one; the value ends at the first closing parenthesis and may
run over several lines.  A comment is searched from left to right, and a directive begins only after
the previous one has ended.

A directive whose name is `SuppressWarnings`, in any case, silences rules: all of them when its
value is the name of a tool, the rule whose name follows a tool name and a dot, and every rule
whose name has the value as a part, in any case.
-/

namespace TreeLint

structure Directive where
  name : String
  value : String
  deriving DecidableEq, Repr

namespace Directive

/-- What is cut off at the two ends of a value. -/
def isPadding (c : Char) : Bool := c == '\x22' || c == ' '

/-- A directive from its name and its value as written. -/
def make (name value : List Char) : Directive :=
  ⟨String.ofList name, String.ofList (Text.trim isPadding value)⟩

/-- The value of a directive and what follows it, from after the opening parenthesis on. -/
def readValue? (cs : List Char) : Option (List Char × List Char) :=
  match cs.takeWhile (· != ')'), cs.dropWhile (· != ')') with
  | v :: vs, ')' :: rest => some (v :: vs, rest)
  | _, _ => none

/-- The directive whose at sign stands right before `cs`, and what follows it. -/
def afterAt? (cs : List Char) : Option (Directive × List Char) :=
  match cs.takeWhile Text.isNameChar, cs.dropWhile Text.isNameChar with
  | first :: second :: more, '(' :: rest =>
    if Text.isNameStart first then
      (readValue? rest).map fun (value, rest') => (make (first :: second :: more) value, rest')
    else none
  | _, _ => none

theorem readValue?_length {cs value rest : List Char} (h : readValue? cs = some (value, rest)) :
    rest.length < cs.length := by
  unfold readValue? at h
  split at h
  · next v vs tail htake hdrop =>
    cases h
    have hlength : (v :: vs ++ ')' :: rest).length = cs.length := by
      rw [← htake, ← hdrop, List.takeWhile_append_dropWhile]
    simp only [List.length_append, List.length_cons] at hlength
    omega
  · cases h

theorem afterAt?_length {cs rest : List Char} {directive : Directive}
    (h : afterAt? cs = some (directive, rest)) : rest.length < cs.length := by
  unfold afterAt? at h
  split at h
  · next first second more tail htake hdrop =>
    split at h
    · obtain ⟨⟨value, rest'⟩, hvalue, heq⟩ := Option.map_eq_some_iff.1 h
      cases heq
      have hshort := readValue?_length hvalue
      have hlength : (first :: second :: more ++ '(' :: tail).length = cs.length := by
        rw [← htake, ← hdrop, List.takeWhile_append_dropWhile]
      simp only [List.length_append, List.length_cons] at hlength
      omega
    · cases h
  · cases h

/-- All directives of a text, from left to right. -/
def scan (cs : List Char) : List Directive :=
  match cs with
  | [] => []
  | c :: rest =>
    if c = '@' then
      match _h : afterAt? rest with
      | some (directive, rest') => directive :: scan rest'
      | none => scan rest
    else scan rest
termination_by cs.length
decreasing_by
  · have := afterAt?_length _h
    simp only [List.length_cons]
    omega
  · simp
  · simp

/-- The directives of a comment. -/
def parse (comment : String) : List Directive := scan comment.toList

/-- The name, in lower case, of the directives that silence rules. -/
def suppressName : String := "suppresswarnings"

def toolNames : List String := ["PHPMD", "PMD"]

/-- Whether a suppression with this value covers a rule. -/
def covers (value rule : String) : Bool :=
  toolNames.contains value
    || toolNames.any (fun tool => (tool ++ "." ++ rule).toList.isPrefixOf value.toList)
    || Text.occursIn (Text.lower value).toList (Text.lower rule).toList

def suppresses (directive : Directive) (rule : String) : Bool :=
  Text.lower directive.name == suppressName && covers directive.value rule

end Directive

end TreeLint
