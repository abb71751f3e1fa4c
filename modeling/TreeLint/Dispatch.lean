import TreeLint.Log
import TreeLint.Rule.Basic
import TreeLint.Suppression

/-!
# Running rules over a tree

Every rule is tried on every node of its kinds, nodes in pre-order and rules in the given order.
What happens at one such pair is a list of events: the rule is suppressed there, its check breaks
down, or it finds violations, of which those on suppressed nodes are dropped.  A pair cannot
influence what happens at another one; all that is handed on is the memo of parsed comments.

A check that breaks down is survived, but the run ends when a comment that the search for
suppressors comes to cannot be read, or when the error that a check raised has no text.
-/

namespace TreeLint

/-- A failure that a run reports and survives. -/
structure ProcessingError where
  file : String
  message : String
  deriving DecidableEq, Repr

inductive Event where
  /-- `node` is the label of the node. -/
  | suppressed (rule : String) (node : Except Text.Unwritable String)
  | failed (error : ProcessingError) (line : Line)
  | found (violation : Violation)

namespace Event

def violation? : Event → Option Violation
  | .found v => some v
  | _ => none

def error? : Event → Option ProcessingError
  | .failed error _ => some error
  | _ => none

def logger : String := packageLogger ++ ".use_cases.dispatch"

/-- An entry whose message is made while it is logged.  Without a message there is no entry. -/
def entry (level : Level) (message : Except Text.Unwritable String) : List LogEntry :=
  match message with
  | .ok text => [⟨logger, level, text⟩]
  | .error _ => []

/-- What the log says about an event. -/
def log : Event → List LogEntry
  | .suppressed rule node => entry .debug (node.map fun label => rule ++ " suppressed on " ++ label)
  | .failed error line =>
    entry .warning (line.text.map fun text =>
        "Rule failure in " ++ error.file ++ " at line " ++ text ++ ": " ++ error.message)
      ++ entry .debug (.ok "Rule failure traceback")
  | .found _ => []

end Event

namespace Dispatch

open Suppression (Memo suppressor)
open Text (Unwritable)

/-- The violations that no declaration around their node suppresses. -/
def keep (rule : String) (memo : Memo) : List Violation → Except Unwritable (List Event × Memo)
  | [] => .ok ([], memo)
  | v :: rest =>
    match suppressor v.tree rule memo v.node with
    | (.error fault, _) => .error fault
    | (.ok (some _), memo) => keep rule memo rest
    | (.ok none, memo) =>
      (keep rule memo rest).map fun (events, memo) => (.found v :: events, memo)

/-- The error that a broken check leaves behind. -/
def failure (t : Tree) (rule : RuleInfo) (fault : Fault) : Except Unwritable ProcessingError :=
  fault.message.map fun text => ⟨t.file, rule.name ++ ": " ++ fault.kindName ++ ": " ++ text⟩

/-- What happens when a rule is tried on a node. -/
def apply (t : Tree) (memo : Memo) (i : t.Pos) (rule : Rule) :
    Except Unwritable (List Event × Memo) :=
  match suppressor t rule.name memo i with
  | (.error fault, _) => .error fault
  | (.ok (some _), memo) => .ok ([.suppressed rule.name (t.label i)], memo)
  | (.ok none, memo) =>
    match rule.check t i with
    | .error fault =>
      (failure t rule.toRuleInfo fault).map fun error =>
        ([.failed error (t.node i).beginLine], memo)
    | .ok violations => keep rule.name memo violations

/-- The pairs that are tried, in order. -/
def pairs (rules : List Rule) (t : Tree) : List (t.Pos × Rule) :=
  t.walk.flatMap fun i => (rules.filter (·.appliesTo (t.kind i))).map fun rule => (i, rule)

def applyAll (t : Tree) (memo : Memo) : List (t.Pos × Rule) → Except Unwritable (List Event)
  | [] => .ok []
  | (i, rule) :: rest =>
    match apply t memo i rule with
    | .error fault => .error fault
    | .ok (events, memo) => (applyAll t memo rest).map fun later => events ++ later

/-- What happens in a run, unless something ends it early. -/
def run (rules : List Rule) (t : Tree) : Except Unwritable (List Event) :=
  applyAll t Memo.empty (pairs rules t)

end Dispatch

end TreeLint
