import TreeLint.Rule.Basic

/-!
# Rules given as data

A scripted rule flags nodes found from the node that it looks at by one step: the node itself, the
nodes below it, a neighbour.  It can also be made to break down, which shows how a run copes with a
broken rule.
-/

namespace TreeLint

inductive Probe where
  | flag
  | descendants
  | parent
  | child (position : Int)
  | require (tag : Value)
  /-- Breaks down on the nodes with this image, or on all when there is none. -/
  | fail (kind : RaisedKind) (arguments : List Value) (image : Option Value)
  /-- Breaks down by answering nothing at all. -/
  | absent
  /-- Finds nothing. -/
  | idle

structure Script where
  info : RuleInfo
  probe : Probe
  /-- The message arguments; an image when absent. -/
  arguments : Option (List Value) := none

namespace Script

def family : String := "ScriptedRule"

def defaultName : String := "Scripted"

/-- A violation at `i`; without arguments of its own its message has the image of `shown`. -/
def report (script : Script) (t : Tree) (i shown : t.Pos) : Except Fault Violation :=
  Violation.make script.info t i (script.arguments.getD [t.image shown])

def single (script : Script) (t : Tree) (i shown : t.Pos) : Except Fault (List Violation) :=
  (script.report t i shown).map ([·])

def check (script : Script) (t : Tree) (i : t.Pos) : Except Fault (List Violation) :=
  match script.probe with
  | .flag => script.single t i i
  | .descendants => (t.descendants i).mapM fun d => script.report t d d
  | .parent =>
    match t.parent i with
    | .ok p => script.single t p i
    | .error error => .error (.step error)
  | .child position =>
    match t.child i position with
    | .ok c => script.single t c i
    | .error error => .error (.step error)
  | .require tag =>
    match Kind.ofValue? tag with
    | none => .error (.unknownKind tag)
    | some kind =>
      match t.require kind i with
      | .ok found => script.single t found found
      | .error error => .error (.step error)
  | .fail kind arguments image =>
    if image.all (·.same (t.image i)) then .error (.raised kind arguments) else .ok []
  | .absent => .error .noResult
  | .idle => .ok []

def rule (script : Script) : Rule := { script.info with check := script.check }

end Script

end TreeLint
