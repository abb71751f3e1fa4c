import TreeLint.Json.Markup
import TreeLint.Json.Writer
import TreeLint.Report.Basic

/-!
# The report as a document

The violations are taken in the order in which the report lists them and grouped by file, the files
in the order in which they are first met; errors are listed only when there are some.  The text can
be embedded in markup.
-/

namespace TreeLint.Report

/-- The part of a document that does not depend on the report. -/
structure Format where
  version : String := "1.0.0"
  timestamp : String
  spread : Json.Spread := .lines 4

def packageName : String := "phpmd"

def violationValue (v : Violation) : Value :=
  .table
    [("beginLine", v.beginLine.toValue), ("endLine", v.endLine.toValue),
      ("package", v.scopes.namespaceName), ("function", v.scopes.functionName),
      ("class", v.scopes.typeName), ("method", v.scopes.methodName),
      ("description", .str v.description), ("rule", .str v.rule.name),
      ("ruleSet", .str v.rule.ruleset), ("externalInfoUrl", .str v.rule.url),
      ("priority", .int v.rule.priority)]

/-- Violations by file, in the order in which the files were first met. -/
abbrev Groups := List (String × List Violation)

/-- Puts a violation at the end of the group of its file.  A file that has none gets one at the
end. -/
def Groups.add (v : Violation) : Groups → Groups
  | [] => [(v.file, [v])]
  | (file, found) :: rest =>
    if file = v.file then (file, found ++ [v]) :: rest else (file, found) :: Groups.add v rest

/-- The violations of a report, regrouped one after the other as the report lists them. -/
def groups (report : Report) : Groups :=
  report.violations.foldl (fun groups v => groups.add v) []

def groupValue (group : String × List Violation) : Value :=
  .table [("file", .str group.1), ("violations", .list (group.2.map violationValue))]

def errorValue (error : ProcessingError) : Value :=
  .table [("fileName", .str error.file), ("message", .str error.message)]

def document (report : Report) (format : Format) : Value :=
  .table
    ([("version", .str format.version), ("package", .str packageName),
        ("timestamp", .str format.timestamp), ("files", .list (report.groups.map groupValue))]
      ++ if report.errors.isEmpty then []
        else [("errors", .list (report.errors.map errorValue))])

/-- The text of a document, made safe for markup. -/
def encode (format : Format) (document : Value) : Except Json.WriteFault String :=
  ((Json.Style.bare format.spread).write document).map fun text =>
    String.ofList (Json.Markup.escape text.toList)

def render (report : Report) (format : Format) : Except Json.WriteFault String :=
  (encode format (report.document format)).map fun text => text ++ "\n"

end TreeLint.Report
