import TreeLint.Log

/-!
# Progress messages

Messages go to the package's logger or to one below it.  The console keeps the streams that were
opened for them: a new configuration replaces the stream of the one before, so only the newest
stream grows.  Streams that others attached are counted and left alone.
-/

namespace TreeLint

def version : String := "1.0.0"

/-- The sender of progress messages. -/
structure Telemetry where
  project : String
  logger : String := packageLogger

namespace Telemetry

def handshake (sender : Telemetry) : LogEntry :=
  ⟨sender.logger, .info, sender.project ++ " " ++ version ++ " online"⟩

def step (sender : Telemetry) (message : String) : LogEntry := ⟨sender.logger, .info, message⟩

def error (sender : Telemetry) (message : String) : LogEntry := ⟨sender.logger, .error, message⟩

end Telemetry

structure Console where
  /-- All streams opened so far, the newest last. -/
  streams : List String := []
  /-- The number of handlers that are not the package's own. -/
  foreign : Nat := 0
  /-- The least level that is written; absent before the first configuration. -/
  level : Option Level := none

namespace Console

def configure (console : Console) (verbose : Bool) : Console :=
  { console with
    streams := console.streams ++ [""]
    level := some (if verbose then .debug else .info) }

def attachForeign (console : Console) : Console := { console with foreign := console.foreign + 1 }

/-- The handlers on the package's logger. -/
def handlers (console : Console) : Nat := console.foreign + (if console.level.isSome then 1 else 0)

def levelName (console : Console) : String := (console.level.map Level.name).getD "NOTSET"

/-- The names above a logger's name, all of them written backwards.  A name ends before a dot; the
character before that dot is passed over when the next dot is looked for, so the second of two dots
in a row hides the first. -/
def namesAbove (pass : Bool) : List Char → List (List Char)
  | [] => []
  | c :: rest =>
    if !pass && c == '.' then rest :: namesAbove true rest else namesAbove false rest

/-- Whether a logger is the package's or below it. -/
def reaches (logger : String) : Bool :=
  logger == packageLogger
    || (namesAbove false logger.toList.reverse).contains packageLogger.toList.reverse

def accepts (console : Console) (entry : LogEntry) : Bool :=
  reaches entry.logger && console.level.any fun level => level.rank ≤ entry.level.rank

def emit (console : Console) (entry : LogEntry) : Console :=
  if console.accepts entry then
    match console.streams.getLast? with
    | some newest =>
      { console with streams := console.streams.dropLast ++ [newest ++ entry.line ++ "\n"] }
    | none => console
  else console

end Console

end TreeLint
