import TreeLint.Rule.UnusedParameter

/-!
# The built-in rules

Rules are chosen by name from the built-in ones, or described one by one.  Either can go wrong
before any rule has run.
-/

namespace TreeLint.Catalog

def rules : List Rule := [UnusedParameter.rule]

/-- The names of the built-in rules, in ascending order. -/
def names : List String := (rules.map fun rule => rule.name).mergeSort fun a b => decide (a ≤ b)

def find? (name : String) : Option Rule := rules.find? fun rule => rule.name == name

/-- A name that no built-in rule has. -/
structure UnknownRule where
  name : String
  deriving DecidableEq, Repr

def UnknownRule.message (unknown : UnknownRule) : String :=
  "Unknown rule '" ++ unknown.name ++ "'. Known rules: " ++ ", ".intercalate names ++ "."

/-- The rules with the given names, in that order, or all rules.  The first unknown name is
refused. -/
def select (selected : Option (List String)) : Except UnknownRule (List Rule) :=
  (selected.getD names).mapM fun name =>
    match find? name with
    | some rule => .ok rule
    | none => .error ⟨name⟩

end TreeLint.Catalog

namespace TreeLint

/-- Why a rule could not be made: no built-in rule has its name, or it is meant for nodes of a kind
that there is not. -/
inductive RuleFault where
  | unknownRule (unknown : Catalog.UnknownRule)
  | unknownKind (tag : Value)
  deriving Repr

def RuleFault.message : RuleFault → String
  | .unknownRule unknown => unknown.message
  | .unknownKind tag => unknownKindText tag

end TreeLint
