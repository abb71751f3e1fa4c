import TreeLint.Rule.Basic
import TreeLint.Text.Lowercase
import TreeLint.Text.Trim

/-!
# Local variables

The vocabulary of rules about variables: which uses of a variable count as uses of its value, and
which function a call names.

The first of these looks at the nodes around a variable, a step at a time, and asks for a parent or
a first child only where it takes one to be there.  A step that finds none fails.
-/

namespace TreeLint.Tree

variable {t : Tree}

/-- Variables that exist in every scope. -/
def superGlobals : List String :=
  ["$argc", "$argv", "$_COOKIE", "$_ENV", "$_FILES", "$_GET", "$_POST", "$_REQUEST", "$_SERVER",
    "$_SESSION", "$GLOBALS", "$HTTP_RAW_POST_DATA", "$php_errormsg", "$http_response_header"]

def isSuperGlobal (t : Tree) (i : t.Pos) : Except ImageFault Bool :=
  (Image.key (t.image i)).map fun name => superGlobals.any fun s => name.same (.str s)

/-- Whether a node stands right below an index expression. -/
def isWrapped (t : Tree) (i : t.Pos) : Except StepError Bool :=
  if t.hasParent i then (t.parent i).map fun p => (t.kind p).isIndex else .ok false

/-- Climbs out of index expressions as long as the node is their first child. -/
def stripIndex (t : Tree) (i : t.Pos) : Except StepError t.Pos :=
  match t.isWrapped i with
  | .error error => .error error
  | .ok false => .ok i
  | .ok true =>
    match _h : t.parent i with
    | .error error => .error error
    | .ok p =>
      match t.child p 0 with
      | .error error => .error error
      | .ok first => if first = i then stripIndex t p else .ok i
termination_by i.val
decreasing_by exact parent_lt _h

/-- The member access right above a node, if there is one. -/
def memberAround? (t : Tree) (i : t.Pos) : Except StepError (Option t.Pos) :=
  if t.hasParent i then
    (t.parent i).map fun p => if t.kind p == .memberPrimaryPrefix then some p else none
  else .ok none

/-- Whether a variable is used for its value.  A variable that names the class of a static property
is not. -/
def isRegularVariable (t : Tree) (v : t.Pos) : Except StepError Bool := do
  let i ← t.stripIndex v
  if !t.hasParent i then return true
  let access ← t.parent i
  if t.kind access != .propertyPostfix then return true
  if !t.hasParent access then return true
  let primary ← t.parent access
  match ← t.memberAround? primary with
  | some outer => return !t.isStatic outer
  | none =>
    let first ← t.child access 0
    return first != i || !t.isStatic primary

def isLocalVariable (t : Tree) (i : t.Pos) : Except Fault Bool :=
  if t.isThis i then .ok false
  else
    match t.isSuperGlobal i with
    | .error fault => .error (.image fault)
    | .ok true => .ok false
    | .ok false => (t.isRegularVariable i).mapError .step

/-- Whether the last segment of a qualified function name is `name`, in any case. -/
def namesFunction (t : Tree) (name : String) (i : t.Pos) : Except ImageFault Bool :=
  (Image.text .trim (t.image i)).map fun qualified =>
    let segment := Text.lastSegment '\\' (Text.trim (· == '\\') qualified.toList)
    Text.lower (String.ofList segment) == Text.lower name

end TreeLint.Tree
