import TreeLint.Text.Template
import TreeLint.Tree.Image
import TreeLint.Tree.Inspect

/-!
# Rules and violations

A rule looks at the nodes of certain kinds and answers with violations, or with a fault when the
check itself breaks down.  A violation points at a node; its message is the rule's template filled
with the arguments that the check supplies, and it names the innermost containers of its node.

A text in which an integer has too many digits to be written out cannot be made.  Where a check
needs one it breaks down; where an error holds such an integer, the error itself has no text.
-/

namespace TreeLint

/-- What a rule says about itself. -/
structure RuleInfo where
  /-- The family of rules it belongs to, for its label. -/
  family : String
  name : String
  ruleset : String := ""
  priority : Int := 3
  url : String := ""
  message : String := ""
  description : String := ""
  kinds : List Kind := [.function, .method]

def RuleInfo.label (rule : RuleInfo) : String := "<" ++ rule.family ++ " " ++ rule.name ++ ">"

/-- The kinds of errors that a check can raise on purpose. -/
inductive RaisedKind where
  | runtime
  | value
  | key
  deriving DecidableEq, Repr

/-- Why a check broke down. -/
inductive Fault where
  | step (error : Tree.StepError)
  | image (fault : ImageFault)
  | template (fault : Text.Template.Fault)
  | unknownKind (tag : Value)
  | noResult
  /-- An integer has too many digits to be written out. -/
  | unwritable
  | raised (kind : RaisedKind) (arguments : List Value)
  /-- An error of any other kind. -/
  | foreign (kindName text : String)
  deriving Repr

/-- The words for a tag that names no kind. -/
def unknownKindText (tag : Value) : String :=
  match tag.inner with
  | .ok text => text ++ " is not a valid NodeKind"
  | .error fault => fault.message

namespace Fault

/-- The name of the kind of error. -/
def kindName : Fault → String
  | .step (.noParent _) => "NoParentError"
  | .step (.noChild _ _ _) => "NodeIndexError"
  | .step (.noDescendant _ _) => "NodeNotFoundError"
  | .step .unwritable => "ValueError"
  | .image fault => fault.kindName
  | .template (.missingArgument _) => "IndexError"
  | .template (.unknownName _) => "KeyError"
  | .template _ => "ValueError"
  | .unknownKind _ => "ValueError"
  | .noResult => "TypeError"
  | .unwritable => "ValueError"
  | .raised .runtime _ => "RuntimeError"
  | .raised .value _ => "ValueError"
  | .raised .key _ => "KeyError"
  | .foreign kindName _ => kindName

/-- The text of an error raised with some arguments. -/
def raisedText : RaisedKind → List Value → Except Text.Unwritable String
  | _, [] => .ok ""
  | .key, [v] => v.inner
  | _, [v] => v.shown
  | _, vs => (vs.mapM Value.inner).map fun texts => "(" ++ ", ".intercalate texts ++ ")"

def message : Fault → Except Text.Unwritable String
  | .step error => .ok error.message
  | .image fault => .ok fault.message
  | .template fault => .ok fault.message
  | .unknownKind tag => .ok (unknownKindText tag)
  | .noResult => .ok "'NoneType' object is not iterable"
  | .unwritable => .ok Text.Unwritable.tooManyDigits.message
  | .raised kind arguments => raisedText kind arguments
  | .foreign _ text => .ok text

end Fault

/-- The names of the innermost containers of a node; null where there is none. -/
structure Scopes where
  namespaceName : Value := .null
  typeName : Value := .null
  methodName : Value := .null
  functionName : Value := .null
  deriving Repr

namespace Scopes

/-- Takes the name of a container into the first place that it fits and that is still empty. -/
def enter (scopes : Scopes) (node : Node) : Scopes :=
  if node.kind = .namespaceScope ∧ scopes.namespaceName.isNull then
    { scopes with namespaceName := node.image }
  else if node.kind.isType ∧ scopes.typeName.isNull then
    { scopes with typeName := node.image }
  else if node.kind = .method ∧ scopes.methodName.isNull then
    { scopes with methodName := node.image }
  else if node.kind = .function ∧ scopes.functionName.isNull then
    { scopes with functionName := node.image }
  else scopes

/-- One pass from a node to the root. -/
def around (t : Tree) (i : t.Pos) : Scopes :=
  (t.lineage i).foldl (fun scopes j => scopes.enter (t.node j)) {}

end Scopes

structure Violation where
  rule : RuleInfo
  tree : Tree
  node : tree.Pos
  description : String
  scopes : Scopes
  arguments : List Value

namespace Violation

def file (v : Violation) : String := v.tree.file

def beginLine (v : Violation) : Line := (v.tree.node v.node).beginLine

def endLine (v : Violation) : Line := (v.tree.node v.node).endLine

/-- The violation of a rule at a node. -/
def make (rule : RuleInfo) (t : Tree) (i : t.Pos) (arguments : List Value) :
    Except Fault Violation :=
  match Text.Template.render rule.message (arguments.map Value.shown) with
  | .ok description => .ok ⟨rule, t, i, description, Scopes.around t i, arguments⟩
  | .error fault => .error (.template fault)

end Violation

structure Rule extends RuleInfo where
  check : (t : Tree) → t.Pos → Except Fault (List Violation)

def Rule.appliesTo (rule : Rule) (kind : Kind) : Bool := rule.kinds.contains kind

end TreeLint
