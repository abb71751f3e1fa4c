/-!
# Log entries
-/

namespace TreeLint

inductive Level where
  | debug
  | info
  | warning
  | error
  deriving DecidableEq, Repr

def Level.name : Level → String
  | .debug => "DEBUG"
  | .info => "INFO"
  | .warning => "WARNING"
  | .error => "ERROR"

def Level.rank : Level → Nat
  | .debug => 10
  | .info => 20
  | .warning => 30
  | .error => 40

structure LogEntry where
  logger : String
  level : Level
  message : String
  deriving DecidableEq, Repr

/-- An entry as it stands in a log. -/
def LogEntry.line (entry : LogEntry) : String :=
  "[" ++ entry.logger ++ "] " ++ entry.level.name ++ ": " ++ entry.message

/-- The logger of the package; the others are below it. -/
def packageLogger : String := "mess_detector"

end TreeLint
