import TreeLint.Tree.Walk

/-!
# Facts about single nodes

What rules ask of a node: its attributes, its label in messages, and the steps to a neighbour that
may not be there.
-/

namespace TreeLint.Tree

variable {t : Tree}

def attribute? (t : Tree) (name : String) (i : t.Pos) : Option Value :=
  Fields.get? (t.node i).attributes name

/-- Whether an attribute is set to something that counts as true; `absent` when it is not there. -/
def flag (t : Tree) (name : String) (absent : Bool) (i : t.Pos) : Bool :=
  ((t.attribute? name i).map Value.truthy).getD absent

def isStatic (t : Tree) (i : t.Pos) : Bool := t.flag "static" false i

def isAbstract (t : Tree) (i : t.Pos) : Bool := t.flag "abstract" false i

/-- Whether a signature is its own declaration and does not restate another one. -/
def isOwnDeclaration (t : Tree) (i : t.Pos) : Bool := t.flag "declaration" true i

/-- The comment in front of a declaration; empty when there is none.  A dump gives it as a text; any
other value is written out, which fails on an integer with too many digits. -/
def docComment (t : Tree) (i : t.Pos) : Except Text.Unwritable String :=
  match t.attribute? "docComment" i with
  | some v => if v.truthy then v.shown else .ok ""
  | none => .ok ""

def thisImage : String := "$this"

/-- Whether a node refers to the object that a method was called on. -/
def isThis (t : Tree) (i : t.Pos) : Bool :=
  t.kind i == .variableUse && (t.image i).same (.str thisImage)

/-- The number of parameters in the parameter list right below a declaration. -/
def parameterCount (t : Tree) (i : t.Pos) : Nat :=
  match (t.children i).find? fun c => t.kind c == .formalParameters with
  | some list => (t.descendantsOfKind .variableDeclarator list).length
  | none => 0

/-- A node as messages name it. -/
def label (t : Tree) (i : t.Pos) : Except Text.Unwritable String := do
  let image ← (t.image i).inner
  let line ← (t.node i).beginLine.text
  return "<" ++ (if (t.kind i).isDeclaration then "DeclarationNode" else "Node") ++ " "
    ++ (t.kind i).tag ++ " " ++ image ++ " " ++ t.file ++ ":" ++ line ++ ">"

/-- Why a neighbour could not be reached.  `node` is the label of the node it was asked of. -/
inductive StepError where
  | noParent (node : String)
  | noChild (node : String) (count : Nat) (position : Int)
  | noDescendant (node : String) (kind : Kind)
  /-- The message about it cannot be written. -/
  | unwritable
  deriving DecidableEq, Repr

def StepError.message : StepError → String
  | .noParent node => node ++ " is the tree root and has no parent."
  | .noChild node count position =>
    node ++ " has " ++ toString count ++ " children; no child at " ++ toString position ++ "."
  | .noDescendant node kind => node ++ " has no descendant of kind " ++ kind.tag ++ "."
  | .unwritable => Text.Unwritable.tooManyDigits.message

/-- The error about a node, made with its label. -/
def StepError.about (label : Except Text.Unwritable String) (error : String → StepError) :
    StepError :=
  match label with
  | .ok node => error node
  | .error _ => .unwritable

def hasParent (t : Tree) (i : t.Pos) : Bool := (t.parent? i).isSome

def parent (t : Tree) (i : t.Pos) : Except StepError t.Pos :=
  match t.parent? i with
  | some p => .ok p
  | none => .error (.about (t.label i) .noParent)

def child (t : Tree) (i : t.Pos) (position : Int) : Except StepError t.Pos :=
  let found := if position < 0 then none else (t.children i)[position.toNat]?
  match found with
  | some c => .ok c
  | none =>
    .error <|
      if Text.isWritable position then
        .about (t.label i) fun node => .noChild node (t.children i).length position
      else .unwritable

theorem parent_lt {i p : t.Pos} (h : t.parent i = .ok p) : p.val < i.val := by
  unfold parent at h
  split at h
  · next hparent =>
    cases h
    exact parent?_lt hparent
  · cases h

def require (t : Tree) (kind : Kind) (i : t.Pos) : Except StepError t.Pos :=
  match t.firstOfKind? kind i with
  | some found => .ok found
  | none => .error (.about (t.label i) fun node => .noDescendant node kind)

end TreeLint.Tree
