import TreeLint.Report.Basic

/-!
# Lines that cannot be filed

The line of every violation that comes from a dump is an integer or a truth value.  Any other line
has to be usable as a key, and the lines of one file have to have an order, or the report cannot be
read out.
-/

namespace TreeLint.Report

inductive LineFault where
  | noKey (typeName : String)
  | noOrder (later earlier : String)
  deriving DecidableEq, Repr

def LineFault.message : LineFault → String
  | .noKey typeName => Value.noKeyText typeName
  | .noOrder later earlier =>
    "'<' not supported between instances of '" ++ later ++ "' and '" ++ earlier ++ "'"

/-- Begins the table of a file, unless it is there. -/
def openFile (report : Report) (file : String) : Report :=
  { report with files := Ordered.alter file (fun found => found.getD []) report.files }

/-- Why a violation cannot be filed. -/
def refusal? (v : Violation) : Option LineFault :=
  let line := v.beginLine.toValue
  if line.isKey then none else some (.noKey line.typeName)

/-- Files a violation.  The table of its file is there afterwards even when it is refused. -/
def file (report : Report) (v : Violation) : Option LineFault × Report :=
  match refusal? v with
  | some fault => (some fault, report.openFile v.file)
  | none => (none, report.add v)

/-- The line among those already in order that the next one is compared with first: the last one as
long as they came in one direction, and the middle one from then on. -/
def rival? (earlier : List Line) : Option Line :=
  let ordered := earlier.mergeSort Line.le
  let keys := earlier.map Line.key
  if keys = ordered.map Line.key ∨ keys.reverse = ordered.map Line.key then earlier.getLast?
  else ordered[ordered.length / 2]?

/-- The first line that has no order with the earlier ones. -/
def firstDisorder? : List Line → Option LineFault
  | [] => none
  | first :: rest =>
    match rest.dropWhile first.isOrdered, rival? (first :: rest.takeWhile first.isOrdered) with
    | line :: _, some rival => some (.noOrder line.toValue.typeName rival.toValue.typeName)
    | _, _ => none

/-- Why the violations cannot be put in order. -/
def disorder? (report : Report) : Option LineFault :=
  report.files.findSome? fun entry => firstDisorder? (entry.2.map Prod.fst)

end TreeLint.Report
