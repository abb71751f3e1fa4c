import TreeLint.Catalog
import TreeLint.Dump.Load
import TreeLint.Report.Basic
import TreeLint.Telemetry

/-!
# Analysing units

Every unit is loaded and checked on its own, and its batch is merged into the report in the order
of the units, so the report does not depend on the number of workers.  A dump that cannot be loaded
adds one error.  A failure that loading cannot turn into an error ends the run: a single worker
stops at that unit, several workers finish the others first.  The rules are made for each unit once
it has been loaded, so rules that cannot be made end the run too, but only where a unit needs them.

A run begins by saying how many workers it has.  A number with too many digits to be written out
ends it there, before any unit is looked at.
-/

namespace TreeLint.Analysis

/-- What one unit contributes. -/
structure UnitResult where
  batch : Batch
  log : List LogEntry

/-- What ends a run: an integer with too many digits in a dump, a path that no dump can have, rules
that could not be made, or an integer that would have to be written out and has too many digits. -/
inductive Failure where
  | tooManyDigits (count : Nat)
  | unusablePath (error : FileError)
  | rules (fault : RuleFault)
  | unwritable
  deriving Repr

def Failure.message : Failure → String
  | .tooManyDigits count => Text.tooManyDigitsText count
  | .unusablePath error => error.message
  | .rules fault => fault.message
  | .unwritable => Text.Unwritable.tooManyDigits.message

def loadErrorText (error : Dump.LoadError) : String :=
  "Could not load " ++ error.file ++ ": " ++ error.message

def ofEvents (events : List Event) : UnitResult := ⟨Batch.ofEvents events, events.flatMap Event.log⟩

def ofLoadError (sender : Telemetry) (error : Dump.LoadError) : UnitResult where
  batch := { errors := [⟨error.file, error.message⟩] }
  log := [sender.error (loadErrorText error)]

def analyzeUnit (store : Store) (rules : Except RuleFault (List Rule)) (sender : Telemetry)
    (path : String) : Except Failure UnitResult :=
  match Dump.load store path with
  | .ok tree =>
    match rules with
    | .ok rules =>
      match Dispatch.run rules tree with
      | .ok events => .ok (ofEvents events)
      | .error _ => .error .unwritable
    | .error fault => .error (.rules fault)
  | .error (.refused error) => .ok (ofLoadError sender error)
  | .error (.tooManyDigits count) => .error (.tooManyDigits count)
  | .error (.unusablePath error) => .error (.unusablePath error)
  | .error .unwritable => .error .unwritable

/-- The units before the first failure, and the failure. -/
def untilFailure : List (Except Failure UnitResult) → List UnitResult × Option Failure
  | [] => ([], none)
  | .error failure :: _ => ([], some failure)
  | .ok unit :: rest =>
    let (units, failure) := untilFailure rest
    (unit :: units, failure)

/-- What several workers log: every unit that did not fail. -/
def succeeded (results : List (Except Failure UnitResult)) : List UnitResult :=
  results.filterMap Except.toOption

def mergeAll (units : List UnitResult) : Report :=
  units.foldl (fun report unit => report.merge unit.batch) {}

/-- What came of a run, before its time is taken. -/
structure Outcome where
  log : List LogEntry
  result : Except Failure Report

def startText (count : Nat) (workers : String) : String :=
  "Analyzing " ++ toString count ++ " unit(s) with " ++ workers ++ " worker(s)..."

def endText (report : Report) (elapsed : Nat) : String :=
  "Found " ++ toString report.count ++ " violation(s) and " ++ toString report.errors.length
    ++ " processing error(s) in " ++ toString elapsed ++ " ms."

/-- The whole log of a run that took `elapsed` milliseconds. -/
def Outcome.timed (outcome : Outcome) (sender : Telemetry) (elapsed : Nat) : List LogEntry :=
  match outcome.result with
  | .ok report => outcome.log ++ [sender.step (endText report elapsed)]
  | .error _ => outcome.log

/-- Analyses the units of a run whose number of workers has been written to the log. -/
def runUnits (store : Store) (rules : Except RuleFault (List Rule)) (sender : Telemetry)
    (paths : List String) (jobs : Int) : Outcome :=
  let results := paths.map (analyzeUnit store rules sender)
  let (units, failure) := untilFailure results
  let logged := if 1 < jobs ∧ 1 < paths.length then succeeded results else units
  { log := logged.flatMap UnitResult.log
    result :=
      match failure with
      | some failure => .error failure
      | none => .ok (mergeAll units) }

/-- Analyses the dumps at some paths. -/
def run (store : Store) (rules : Except RuleFault (List Rule)) (sender : Telemetry)
    (paths : List String) (jobs : Int) : Outcome :=
  match Text.written jobs with
  | .error _ => { log := [], result := .error .unwritable }
  | .ok workers =>
    let outcome := runUnits store rules sender paths jobs
    { outcome with log := sender.step (startText paths.length workers) :: outcome.log }

end TreeLint.Analysis
