import TreeLint.Dispatch
import TreeLint.Report.Ordered

/-!
# Reports

A report gathers the violations and the errors of a run.  Violations are filed under their file and,
within it, under their begin line; on one line they stay in the order in which they came.  Errors
stay in the order in which they came.
-/

namespace TreeLint

/-- What one unit contributes to a report, in order. -/
structure Batch where
  violations : List Violation := []
  errors : List ProcessingError := []

/-- The violations and errors among some events. -/
def Batch.ofEvents (events : List Event) : Batch :=
  ⟨events.filterMap Event.violation?, events.filterMap Event.error?⟩

/-- The violations of one file by line, the lines in the order in which they first came. -/
abbrev LineTable := List (Line × List Violation)

structure Report where
  files : List (String × LineTable) := []
  errors : List ProcessingError := []

namespace Report

def fileLine (v : Violation) : LineTable → LineTable
  | [] => [(v.beginLine, [v])]
  | (line, found) :: rest =>
    if line.key = v.beginLine.key then (line, found ++ [v]) :: rest
    else (line, found) :: fileLine v rest

def add (report : Report) (v : Violation) : Report :=
  { report with
    files := Ordered.alter v.file (fun found => fileLine v (found.getD [])) report.files }

def addError (report : Report) (error : ProcessingError) : Report :=
  { report with errors := report.errors ++ [error] }

def merge (report : Report) (batch : Batch) : Report :=
  batch.errors.foldl addError (batch.violations.foldl add report)

/-- The violations of one file, by line. -/
def inFile (table : LineTable) : List Violation :=
  (table.mergeSort fun a b => a.1.le b.1).flatMap Prod.snd

/-- All violations, by file and line. -/
def violations (report : Report) : List Violation :=
  report.files.flatMap fun entry => inFile entry.2

def count (report : Report) : Nat :=
  (report.files.flatMap fun entry => entry.2.flatMap Prod.snd).length

def isEmpty (report : Report) : Bool := report.files.isEmpty

def hasErrors (report : Report) : Bool := !report.errors.isEmpty

/-- How a run ends: with 1 when there are violations, else with 2 when there are errors. -/
def exitCode (report : Report) : Nat :=
  if !report.isEmpty then 1 else if report.hasErrors then 2 else 0

end Report

end TreeLint
