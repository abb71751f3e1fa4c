import TreeLint.Files.Path
import TreeLint.Text.Numeral

/-!
# Command-line arguments

Options may stand before, between and after the paths.  A long option takes its value from the next
argument or after an equals sign; short options can be joined, and the first of them that takes a
value takes the rest of the argument, if there is one.  Two dashes end the options.  Of an option
that may be given once, the last occurrence counts.  The values of the options are checked in the
order in which the options were first given, and the paths after them.
-/

namespace TreeLint.Command

inductive OptionName where
  | rules
  | jobs
  | reportFile
  | verbose
  | help
  deriving DecidableEq, Repr

def OptionName.takesValue : OptionName → Bool
  | .rules | .jobs | .reportFile => true
  | .verbose | .help => false

/-- The options of a command by their long and short names. -/
structure OptionNames where
  long : List (String × OptionName)
  short : List (Char × OptionName)

def checkOptions : OptionNames where
  long :=
    [("--rules", .rules), ("--jobs", .jobs), ("--report-file", .reportFile),
      ("--verbose", .verbose), ("--help", .help)]
  short := [('r', .rules), ('j', .jobs), ('v', .verbose)]

/-- The options of everything but the check. -/
def helpOnly : OptionNames := ⟨[("--help", .help)], []⟩

/-- One option as given, with its value if it takes one. -/
structure Given where
  name : OptionName
  value : String := ""
  deriving DecidableEq, Repr

/-- What the arguments come down to. -/
structure Parsed where
  options : List Given := []
  positional : List String := []

def Parsed.addOption (parsed : Parsed) (given : Given) : Parsed :=
  { parsed with options := parsed.options ++ [given] }

def Parsed.addPositional (parsed : Parsed) (arguments : List String) : Parsed :=
  { parsed with positional := parsed.positional ++ arguments }

/-- The parts before and after the first equals sign. -/
def splitEquals (argument : List Char) : List Char × Option (List Char) :=
  match argument.dropWhile (· != '=') with
  | [] => (argument, none)
  | _ :: value => (argument.takeWhile (· != '='), some value)

/-- How an option that takes a value gets it. -/
inductive Supply where
  | attached (value : String)
  | next

/-- An argument with options: those that are complete, and the last one when it takes a value. -/
structure Opened where
  done : List Given := []
  last : Option (OptionName × Supply) := none

/-- A long option.  None when there is no such option or it takes no value but has one. -/
def openLong? (names : OptionNames) (argument : List Char) : Option (Option Opened) :=
  let (name, value) := splitEquals argument
  match names.long.lookup (String.ofList name) with
  | none => none
  | some option =>
    if option.takesValue then
      match value with
      | some v => some (some { last := some (option, .attached (String.ofList v)) })
      | none => some (some { last := some (option, .next) })
    else
      match value with
      | some _ => some none
      | none => some (some { done := [⟨option, ""⟩] })

/-- Joined short options, from after the dash on. -/
def openShort? (names : OptionNames) (done : List Given) : List Char → Option Opened
  | [] => some ⟨done, none⟩
  | c :: rest =>
    match names.short.lookup c with
    | none => none
    | some option =>
      if option.takesValue then
        some ⟨done, some (option,
          if rest.isEmpty then .next else .attached (String.ofList rest))⟩
      else openShort? names (done ++ [⟨option, ""⟩]) rest

/-- The options in an argument that starts with a dash. -/
def openArgument? (names : OptionNames) (argument : List Char) : Option Opened :=
  match openLong? names argument with
  | some opened => opened
  | none =>
    match argument with
    | '-' :: '-' :: _ => none
    | _ => openShort? names [] (argument.drop 1)

/-- Whether an argument holds options. -/
def isOption (argument : List Char) : Bool :=
  match argument with
  | '-' :: _ :: _ => true
  | _ => false

/-- Goes through the arguments.  With `mixed`, options may follow positional arguments; without it
the first positional argument ends the options.  None on a usage error. -/
def parseFrom (names : OptionNames) (mixed : Bool) (parsed : Parsed) : List String → Option Parsed
  | [] => some parsed
  | argument :: rest =>
    if argument = "--" then some (parsed.addPositional rest)
    else if isOption argument.toList then
      match openArgument? names argument.toList with
      | none => none
      | some opened =>
        let parsed := opened.done.foldl Parsed.addOption parsed
        match opened.last with
        | none => parseFrom names mixed parsed rest
        | some (option, .attached value) =>
          parseFrom names mixed (parsed.addOption ⟨option, value⟩) rest
        | some (option, .next) =>
          match rest with
          | [] => none
          | value :: rest => parseFrom names mixed (parsed.addOption ⟨option, value⟩) rest
    else if mixed then parseFrom names mixed (parsed.addPositional [argument]) rest
    else some (parsed.addPositional (argument :: rest))

def parse? (names : OptionNames) (mixed : Bool) (arguments : List String) : Option Parsed :=
  parseFrom names mixed {} arguments

/-- The values of an option, in order. -/
def Parsed.values (parsed : Parsed) (name : OptionName) : List String :=
  (parsed.options.filter fun given => given.name == name).map Given.value

def Parsed.has (parsed : Parsed) (name : OptionName) : Bool :=
  parsed.options.any fun given => given.name == name

/-! ## Invocations -/

structure CheckOptions where
  paths : List String
  rules : List String := []
  jobs : Option Int := none
  reportFile : Option String := none
  verbose : Bool := false

inductive Invocation where
  | check (options : CheckOptions)
  | listRules
  | help
  | misuse
  /-- A path with a null character in it. -/
  | unusablePath (path : Path)

/-- The number of workers: an integer of at least one. -/
def jobs? (text : String) : Option Int :=
  (Text.integer? text).filter fun n => decide (1 ≤ n)

/-- The value of an option that may be given once. -/
def Parsed.value? (parsed : Parsed) (name : OptionName) : Option String :=
  (parsed.values name).getLast?

/-- What the arguments come down to when a path has a null character in it. -/
def refusedPath? (text : String) : Option Invocation :=
  let path := Path.parse text
  if path.hasNull then some (.unusablePath path) else none

/-- What the arguments come down to when the value of an option is refused. -/
def refusedOption? (parsed : Parsed) : OptionName → Option Invocation
  | .jobs => (parsed.value? .jobs).bind fun text => if (jobs? text).isNone then some .misuse else none
  | .reportFile => (parsed.value? .reportFile).bind refusedPath?
  | .rules | .verbose | .help => none

/-- What the arguments come down to when the paths are refused.  There has to be one. -/
def refusedPaths? (paths : List String) : Option Invocation :=
  if paths.isEmpty then some .misuse else paths.findSome? refusedPath?

/-- What the arguments come down to when any of them is refused. -/
def refused? (parsed : Parsed) : Option Invocation :=
  (parsed.options.findSome? fun given => refusedOption? parsed given.name)
    <|> refusedPaths? parsed.positional

def ofCheck (parsed : Parsed) : Invocation :=
  if parsed.has .help then .help
  else
    (refused? parsed).getD <| .check {
      paths := parsed.positional
      rules := parsed.values .rules
      jobs := (parsed.value? .jobs).bind jobs?
      reportFile := parsed.value? .reportFile
      verbose := parsed.has .verbose }

def ofListRules (parsed : Parsed) : Invocation :=
  if parsed.has .help then .help
  else if parsed.positional.isEmpty then .listRules
  else .misuse

/-- What the arguments ask for. -/
def Invocation.ofArguments (arguments : List String) : Invocation :=
  match parse? helpOnly false arguments with
  | none => .misuse
  | some outer =>
    if outer.has .help then .help
    else
      match outer.positional with
      | [] => .misuse
      | command :: rest =>
        if command = "check" then ((parse? checkOptions true rest).map ofCheck).getD .misuse
        else if command = "rules" then ((parse? helpOnly true rest).map ofListRules).getD .misuse
        else .misuse

end TreeLint.Command
