import TreeLint.Rule.Basic
import TreeLint.Rule.Variables
import TreeLint.Text.Caseless

/-!
# Unused formal parameters

The rule reports the parameters of a function or method that its body never uses.  It lists the
declared parameters by name, in the order in which the names first appear, and then strikes out
every name that is used: by a variable, by a compound variable, or by a literal handed to `compact`.
A call of `func_get_args` uses all parameters at once.

Methods whose signature is not theirs to choose are left alone: abstract ones, the magic methods,
those that inherit their documentation, and those that restate another declaration.

The names are images, so the check breaks down at the first image that cannot be used as one, or at
a step to a neighbour that is not there.  On a tree whose images are all texts it never does,
unless the comment of a method cannot be read.
-/

namespace TreeLint.UnusedParameter

def info : RuleInfo where
  family := "UnusedFormalParameterRule"
  name := "UnusedFormalParameter"
  ruleset := "Unused Code Rules"
  priority := 3
  url := "https://phpmd.org/rules/unusedcode.html#unusedformalparameter"
  message := "Avoid unused parameters such as '\x7b0\x7d'."
  description :=
    "Avoid passing parameters to methods or constructors and then not using those parameters."
  kinds := [.function, .method]

/-- Method names that have one of these in them, in any case, are magic. -/
def magicNames : List String :=
  ["__call", "__callstatic", "__get", "__set", "__isset", "__unset", "__set_state"]

def inheritDirective : String := "@inheritdoc"

def isMagic (name : String) : Bool := magicNames.any (Text.occursCaseless · name)

/-- Whether a method is exempt from the rule.  Its comment is read only when neither its flags nor
its name say so. -/
def isExempt (t : Tree) (i : t.Pos) : Except Fault Bool :=
  if t.kind i != .method then .ok false
  else if t.isAbstract i then .ok true
  else
    match Image.text .search (t.image i) with
    | .error fault => .error (.image fault)
    | .ok name =>
      if isMagic name then .ok true
      else
        match t.docComment i with
        | .error _ => .error .unwritable
        | .ok comment =>
          .ok (Text.occursCaseless inheritDirective comment || !t.isOwnDeclaration i)

/-- Parameters that have not been seen in use, by name. -/
abbrev Pending (t : Tree) := List (Value × t.Pos)

namespace Pending

variable {t : Tree}

/-- A name that is there already keeps its first declaration. -/
def add (pending : Pending t) (declarator : t.Pos) : Except ImageFault (Pending t) :=
  (Image.key (t.image declarator)).map fun name =>
    if pending.any fun entry => entry.1.same name then pending
    else pending ++ [(name, declarator)]

/-- A name is not even looked at when nothing is pending. -/
def discard (pending : Pending t) (name : Value) : Except ImageFault (Pending t) :=
  if pending.isEmpty then .ok pending
  else (Image.key name).map fun name => pending.filter fun entry => !entry.1.same name

end Pending

/-- The parameters declared in the first parameter list below a callable. -/
def declared (t : Tree) (i : t.Pos) : Except ImageFault (Pending t) :=
  match t.firstOfKind? .formalParameters i with
  | none => .ok []
  | some list => (t.descendantsOfKind .variableDeclarator list).foldlM Pending.add []

/-- Strikes out a variable that is used for its value. -/
def strikeVariable (t : Tree) (pending : Pending t) (v : t.Pos) : Except Fault (Pending t) :=
  match t.isRegularVariable v with
  | .error error => .error (.step error)
  | .ok false => .ok pending
  | .ok true => (pending.discard (t.image v)).mapError .image

def strikeVariables (t : Tree) (i : t.Pos) (pending : Pending t) : Except Fault (Pending t) :=
  (t.descendantsOfKind .variableUse i).foldlM (strikeVariable t) pending

/-- Strikes out the variable whose name two nodes make up. -/
def strikeJoined (t : Tree) (c : t.Pos) (pending : Pending t) (e : t.Pos) :
    Except ImageFault (Pending t) :=
  match Image.join (t.image c) (t.image e) with
  | .ok name => pending.discard name
  | .error fault => .error fault

def strikeCompounds (t : Tree) (i : t.Pos) (pending : Pending t) : Except ImageFault (Pending t) :=
  (t.descendantsOfKind .compoundVariable i).foldlM
    (fun pending c => (t.descendantsOfKind .expression c).foldlM (strikeJoined t c) pending)
    pending

/-- The variable that a literal argument of `compact` names. -/
def compactName (image : String) : String :=
  "$" ++ String.ofList (Text.trim (fun c => c == '\x22' || c == '\x27') image.toList)

def strikeLiteral (t : Tree) (pending : Pending t) (l : t.Pos) : Except ImageFault (Pending t) :=
  match Image.text .trim (t.image l) with
  | .ok literal => pending.discard (.str (compactName literal))
  | .error fault => .error fault

def strikeCall (t : Tree) (pending : Pending t) (call : t.Pos) : Except ImageFault (Pending t) :=
  match t.namesFunction "func_get_args" call, t.namesFunction "compact" call with
  | .ok all, .ok compact =>
    let pending := if all then [] else pending
    if compact then (t.descendantsOfKind .literal call).foldlM (strikeLiteral t) pending
    else .ok pending
  | .error fault, _ => .error fault
  | _, .error fault => .error fault

def strikeCalls (t : Tree) (i : t.Pos) (pending : Pending t) : Except ImageFault (Pending t) :=
  (t.descendantsOfKind .functionPostfix i).foldlM (strikeCall t) pending

/-- The parameters that a callable never uses, by name. -/
def remaining (t : Tree) (i : t.Pos) : Except Fault (Pending t) := do
  let pending ← (declared t i).mapError .image
  let pending ← strikeVariables t i pending
  let pending ← (strikeCompounds t i pending).mapError .image
  (strikeCalls t i pending).mapError .image

/-- The first declarators of the parameters that a callable never uses. -/
def unused (t : Tree) (i : t.Pos) : Except Fault (List t.Pos) :=
  (remaining t i).map fun pending => pending.map Prod.snd

/-- The declarators that are reported at a node. -/
def reported (t : Tree) (i : t.Pos) : Except Fault (List t.Pos) :=
  if !(t.kind i).isCallable then .ok []
  else
    match isExempt t i with
    | .ok true => .ok []
    | .ok false => unused t i
    | .error fault => .error fault

def check (t : Tree) (i : t.Pos) : Except Fault (List Violation) :=
  match reported t i with
  | .ok declarators =>
    declarators.mapM fun declarator =>
      Violation.make info t declarator [t.image declarator]
  | .error fault => .error fault

def rule : Rule := { info with check := check }

end TreeLint.UnusedParameter
