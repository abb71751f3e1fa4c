import TreeLint.Analysis
import TreeLint.Catalog
import TreeLint.Command.Arguments
import TreeLint.Command.Run
import TreeLint.Decimal.Binary64
import TreeLint.Decimal.Shortest
import TreeLint.Directive
import TreeLint.Dispatch
import TreeLint.Dump.Document
import TreeLint.Dump.Load
import TreeLint.Files.Path
import TreeLint.Files.Store
import TreeLint.Json.Reader
import TreeLint.Json.Writer
import TreeLint.Log
import TreeLint.Main
import TreeLint.Registry
import TreeLint.Report.Basic
import TreeLint.Report.Document
import TreeLint.Report.LineFault
import TreeLint.Report.Ordered
import TreeLint.Rule.Basic
import TreeLint.Rule.Scripted
import TreeLint.Rule.UnusedParameter
import TreeLint.Rule.Variables
import TreeLint.Settings.Basic
import TreeLint.Settings.File
import TreeLint.Stopwatch
import TreeLint.Suppression
import TreeLint.Telemetry
import TreeLint.Text.Caseless
import TreeLint.Text.Hex
import TreeLint.Text.LetterCase
import TreeLint.Text.Lowercase
import TreeLint.Text.Newlines
import TreeLint.Text.Numeral
import TreeLint.Text.Printable
import TreeLint.Text.Quoted
import TreeLint.Text.Template
import TreeLint.Text.Trim
import TreeLint.Text.Utf8
import TreeLint.Toml.Reader
import TreeLint.Toml.Scalar
import TreeLint.Toml.Table
import TreeLint.Tree.Basic
import TreeLint.Tree.Builder
import TreeLint.Tree.Identity
import TreeLint.Tree.Image
import TreeLint.Tree.Inspect
import TreeLint.Tree.Kind
import TreeLint.Tree.Line
import TreeLint.Tree.Walk
import TreeLint.Value.Basic
import TreeLint.Value.Display
import TreeLint.Value.Same
import TreeLint.Proofs.WritableValues
import TreeLint.Proofs.Traversal
import TreeLint.Proofs.VariableUse
import TreeLint.Proofs.UnusedParameters
import TreeLint.Proofs.TextualTrees
import TreeLint.Proofs.DispatchRun
import TreeLint.Proofs.DumpNumbering
import TreeLint.Proofs.JsonRoundTrip
import TreeLint.Proofs.ReportHistory
import TreeLint.Proofs.ReportDocument
import TreeLint.Proofs.WalkBlocks
import TreeLint.Proofs.BuilderHistory
import TreeLint.Proofs.ReportOrder
import TreeLint.Proofs.ReaderAnswers
import TreeLint.Proofs.AnalysisFailures
import TreeLint.Proofs.FileReading
import TreeLint.Proofs.CheckOutcome
import TreeLint.Proofs.SuppressionAnswers
import TreeLint.Proofs.SameShape
import TreeLint.Proofs.CommentEdits
import TreeLint.Proofs.JsonMarkup
import TreeLint.Proofs.EmbeddableText
import TreeLint.Proofs.RunReports
import TreeLint.Proofs.BatchOrder
import TreeLint.Proofs.ShortIntegers
import TreeLint.Proofs.WorkerPool
import TreeLint.Proofs.DumpLines
import TreeLint.Proofs.CheckExit
import TreeLint.Proofs.DirectiveScan
import TreeLint.Proofs.GrownTrees
import TreeLint.Proofs.ParameterCounts
import TreeLint.Proofs.AddedCode
import TreeLint.Proofs.DumpSchema
import TreeLint.Proofs.MethodExemptions
import TreeLint.Proofs.QualifiedCalls
import TreeLint.Proofs.SilencingComments
import TreeLint.Proofs.AncestorOrder
import TreeLint.Proofs.ContainerNames
import TreeLint.Proofs.SettingWarnings
import TreeLint.Proofs.ProjectFile
import TreeLint.Proofs.IndexChains
