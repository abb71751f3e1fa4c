import TreeLint.Analysis
import TreeLint.Command.Arguments
import TreeLint.Registry
import TreeLint.Report.Document

/-!
# Running a command

A command is a function of the files, the arguments and the clock.  It gives what goes to the two
output streams, the files afterwards, and how the program ends: with an exit code, or with a failure
that nothing handled.  The clock is read once, when the analysis is over; what comes before that and
what comes after it are two steps.
-/

namespace TreeLint.Command

/-- A failure that ends the program. -/
inductive Crash where
  | settings (fault : Settings.FileFault)
  | analysis (failure : Analysis.Failure)
  | file (error : FileError)
  /-- The report cannot be written out. -/
  | report (fault : Json.WriteFault)

def Crash.message : Crash → String
  | .settings fault => fault.message
  | .analysis failure => failure.message
  | .file error => error.message
  | .report fault => fault.message

inductive Ending where
  | exit (code : Nat)
  | crash (cause : Crash)

/-- What the program finds when it starts. -/
structure World where
  store : Store
  timestamp : String

structure Outcome where
  stdout : String := ""
  stderr : String := ""
  store : Store
  ending : Ending

def misuseCode : Nat := 2

def unknownRuleCode : Nat := 3

def sender : Telemetry := { project := projectName }

/-- Sends entries to a console and gives the text of its newest stream. -/
def written (verbose : Bool) (entries : List LogEntry) : String :=
  ((entries.foldl Console.emit (Console.configure {} verbose)).streams.getLast?).getD ""

/-- The rules that a check runs: those named by options, else those of the settings. -/
def selection (settings : Settings) (options : CheckOptions) : Option (List String) :=
  if options.rules.isEmpty then settings.rules else some options.rules

/-- The place of the report: that of the options, else that of the settings. -/
def target (settings : Settings) (options : CheckOptions) : Option Path :=
  (options.reportFile <|> settings.reportFile).map Path.parse

/-! ## Up to the end of the analysis -/

/-- A check whose dumps have been analysed. -/
structure Analysed where
  options : CheckOptions
  target : Option Path
  analysis : Analysis.Outcome

/-- How far a command has come when the clock is read. -/
inductive Stage where
  | finished (outcome : Outcome)
  | analysed (check : Analysed)

def check (world : World) (settings : Settings) (options : CheckOptions) : Stage :=
  let stopped (log : List LogEntry) (ending : Ending) : Stage :=
    .finished {
      stderr := written options.verbose (sender.handshake :: log)
      store := world.store
      ending := ending }
  let jobs := options.jobs.getD settings.jobs
  match Catalog.select (selection settings options) with
  | .error unknown => stopped [sender.error unknown.message] (.exit unknownRuleCode)
  | .ok rules =>
    match world.store.collect options.paths settings.treeSuffix with
    | .error error => stopped [] (.crash (.file error))
    | .ok files =>
      .analysed {
        options := options
        target := target settings options
        analysis := Analysis.run world.store (.ok rules) sender files jobs }

/-- The three lines about a rule in the list of rules. -/
def ruleText (rule : RuleInfo) : String :=
  let kinds := (rule.kinds.map Kind.tag).mergeSort fun a b => decide (a ≤ b)
  rule.name ++ " [" ++ rule.ruleset ++ "] priority=" ++ toString rule.priority ++ " on: "
    ++ ", ".intercalate kinds ++ "\n    " ++ rule.description ++ "\n    " ++ rule.url ++ "\n"

def rulesText : String := String.join (Catalog.rules.map fun rule => ruleText rule.toRuleInfo)

def usageText : String :=
  "Usage: mess-detector check [OPTIONS] PATHS...\n       mess-detector rules\n"

/-- Does what an invocation asks for. -/
def perform (world : World) (settings : Settings) : Invocation → Stage
  | .check options => check world settings options
  | .listRules => .finished { stdout := rulesText, store := world.store, ending := .exit 0 }
  | .help => .finished { stdout := usageText, store := world.store, ending := .exit 0 }
  | .misuse =>
    .finished { stderr := usageText, store := world.store, ending := .exit misuseCode }
  | .unusablePath path =>
    .finished { store := world.store, ending := .crash (.file ⟨.nullByte, path⟩) }

/-- The warnings about the settings, a line each. -/
def settingsWarnings (loaded : Settings.Loaded) : String :=
  let lines :=
    (loaded.unreadable.map Settings.unreadableText).toList
      ++ loaded.settings.warnings.map Settings.Warning.text
  String.join (lines.map (· ++ "\n"))

/-- A program that has been started, with the warnings about its settings. -/
structure Started where
  warnings : String
  stage : Stage

/-- Starts the program.  The settings are read before the arguments are looked at. -/
def start (world : World) (arguments : List String) : Started :=
  match Settings.load world.store (Path.parse ".") with
  | .error fault => ⟨"", .finished { store := world.store, ending := .crash (.settings fault) }⟩
  | .ok loaded =>
    ⟨settingsWarnings loaded, perform world loaded.settings (.ofArguments arguments)⟩

/-! ## From the end of the analysis on -/

/-- Hands a report over. -/
def deliver (world : World) (check : Analysed) (log : List LogEntry) (report : Report) : Outcome :=
  let verbose := check.options.verbose
  match report.render { version := version, timestamp := world.timestamp } with
  | .error fault =>
    { stderr := written verbose log, store := world.store, ending := .crash (.report fault) }
  | .ok text =>
    match check.target with
    | none =>
      { stdout := text, stderr := written verbose log, store := world.store,
        ending := .exit report.exitCode }
    | some path =>
      match world.store.write path text with
      | (some error, store) =>
        { stderr := written verbose log, store := store, ending := .crash (.file error) }
      | (none, store) =>
        let log := log ++ [sender.step ("Report written to: " ++ path.text)]
        { stderr := written verbose log, store := store, ending := .exit report.exitCode }

def Analysed.finish (check : Analysed) (world : World) (elapsed : Nat) : Outcome :=
  let log := sender.handshake :: check.analysis.timed sender elapsed
  match check.analysis.result with
  | .error failure =>
    { stderr := written check.options.verbose log, store := world.store,
      ending := .crash (.analysis failure) }
  | .ok report => deliver world check log report

def Stage.finish (world : World) (elapsed : Nat) : Stage → Outcome
  | .finished outcome => outcome
  | .analysed check => check.finish world elapsed

/-- Brings a program to its end, its analysis having taken `elapsed` milliseconds. -/
def Started.finish (started : Started) (world : World) (elapsed : Nat) : Outcome :=
  let outcome := started.stage.finish world elapsed
  { outcome with stderr := started.warnings ++ outcome.stderr }

/-- Runs the program. -/
def run (world : World) (arguments : List String) (elapsed : Nat) : Outcome :=
  (start world arguments).finish world elapsed

end TreeLint.Command
