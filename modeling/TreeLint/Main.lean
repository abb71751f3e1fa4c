import Std.Time.Zoned
import Std.Time.Format
import TreeLint.Command.Run

/-!
# The command line

The project files, the dumps and the directories that a command can ask for are read into a store,
the command runs on the store, and what it changed there is written back.
-/

namespace TreeLint.Main

/-- What stands at a path. -/
def fileType? (path : Path) : IO (Option IO.FS.FileType) := do
  try
    return some (← (← IO.FS.realPath path.text).metadata).type
  catch _ => return none

def namesIn (path : Path) : IO (List String) := do
  try
    return (← (← IO.FS.realPath path.text).readDir).toList.map fun entry => entry.fileName
  catch _ => return []

/-- Reads what stands at a path, without what is below it. -/
def readAt (store : Store) (path : Path) : IO Store := do
  let place := path.resolve store.working
  match ← fileType? path with
  | some .dir => return store.withDirectory place
  | some .file => return store.withFile place (← IO.FS.readBinFile path.text)
  | _ => return store

/-- Reads the directories that a path leads through and what stands at its end. -/
def readAlong (store : Store) (path : Path) : IO Store :=
  (List.range (path.names.length + 1)).foldlM
    (fun store n => readAt store { path with names := path.names.take n }) store

/-- Reads everything below a path. -/
partial def readBelow (store : Store) (path : Path) : IO Store := do
  let store ← readAt store path
  match ← fileType? path with
  | some .dir => (← namesIn path).foldlM (fun store name => readBelow store (path.below [name])) store
  | _ => return store

/-- Reads what a command can ask for. -/
def readStore (arguments : List String) : IO Store := do
  let working := (Path.parse (← IO.FS.realPath ".").toString).resolve []
  let empty : Store := { working := working }
  let store ← (Settings.candidates working).foldlM readAt (empty.withDirectory working)
  match Command.Invocation.ofArguments arguments, Settings.load store (Path.parse ".") with
  | .check options, .ok loaded =>
    let store ← (Command.target loaded.settings options).toList.foldlM readAlong store
    (options.paths.map Path.parse).foldlM
      (fun store path => do readBelow (← readAlong store path) path) store
  | _, _ => return store

def textOf (place : Place) : String := (⟨.top, place⟩ : Path).text

/-- Writes back what differs between two stores. -/
def writeStore (after before : Store) : IO Unit := do
  for place in after.directories do
    unless before.hasDirectory place do IO.FS.createDirAll (textOf place)
  for (place, bytes) in after.changedSince before do
    IO.FS.writeBinFile (textOf place) bytes

def timestamp : IO String := do
  return (← Std.Time.DateTime.now).format "uuuu-MM-dd'T'HH:mm:ssxxx"

/-- Says why a command ended and gives its exit code. -/
def conclude : Command.Ending → IO UInt32
  | .exit code => return code.toUInt32
  | .crash cause => do
    IO.eprintln cause.message
    return 1

/-- Runs the program on the files that are there, and takes the time of its analysis. -/
def run (arguments : List String) : IO UInt32 := do
  let store ← readStore arguments
  let world : Command.World := { store := store, timestamp := ← timestamp }
  let began ← IO.monoMsNow
  let started ← IO.lazyPure fun _ => Command.start world arguments
  let ended ← IO.monoMsNow
  let outcome := started.finish world (ended - began)
  writeStore outcome.store store
  IO.print outcome.stdout
  IO.eprint outcome.stderr
  conclude outcome.ending

end TreeLint.Main

def main (arguments : List String) : IO UInt32 := TreeLint.Main.run arguments
