import TreeLint.Value.Basic

/-!
# Settings

The settings of a run come as a table.  Each of them has a type; a value of another type is passed
over in favour of the default, mostly with a warning.
-/

namespace TreeLint

structure Settings where
  table : Fields := []

namespace Settings

def defaultJobs : Int := 1

def defaultSuffix : String := ".ast.json"

/-- The value of a setting; null counts as not there. -/
def given? (settings : Settings) (name : String) : Option Value :=
  match settings.table.get? name with
  | some .null => none
  | found => found

def text? : Value → Option String
  | .str s => some s
  | _ => none

def names? : Value → Option (List String)
  | .list items => items.mapM text?
  | _ => none

def count? : Value → Option Int
  | .int n => if 1 ≤ n then some n else none
  | _ => none

def nonEmptyText? : Value → Option String
  | .str s => if s.isEmpty then none else some s
  | _ => none

/-- The rules to run; all of them when absent. -/
def rules (settings : Settings) : Option (List String) := (settings.given? "rules").bind names?

/-- The number of workers. -/
def jobs (settings : Settings) : Int := ((settings.given? "jobs").bind count?).getD defaultJobs

/-- What the names of tree dumps end with. -/
def treeSuffix (settings : Settings) : String :=
  ((settings.given? "tree_suffix").bind nonEmptyText?).getD defaultSuffix

/-- Where the report goes; to the standard output when absent. -/
def reportFile (settings : Settings) : Option String :=
  (settings.given? "report_file").bind nonEmptyText?

inductive Warning where
  | rules
  | jobs
  | treeSuffix
  deriving DecidableEq, Repr

def Warning.text : Warning → String
  | .rules => "Configuration Warning: 'rules' must be a list of rule names; using all rules."
  | .jobs =>
    "Configuration Warning: 'jobs' must be an integer >= 1; using " ++ toString defaultJobs ++ "."
  | .treeSuffix =>
    "Configuration Warning: 'tree_suffix' must be a non-empty string; using " ++ defaultSuffix
      ++ "."

/-- Whether a setting is there with a value that its type does not accept. -/
def rejected {α : Type} (settings : Settings) (name : String) (accept : Value → Option α) : Bool :=
  (settings.given? name).any fun v => (accept v).isNone

/-- The warnings about values that are passed over. -/
def warnings (settings : Settings) : List Warning :=
  (if settings.rejected "rules" names? then [.rules] else [])
    ++ (if settings.rejected "jobs" count? then [.jobs] else [])
    ++ (if settings.rejected "tree_suffix" nonEmptyText? then [.treeSuffix] else [])

end Settings

end TreeLint
