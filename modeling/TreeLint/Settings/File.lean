import TreeLint.Files.Store
import TreeLint.Settings.Basic
import TreeLint.Toml.Reader

/-!
# The settings file

The settings are a section of the nearest project file at or above a directory.  A project file that
cannot be read or parsed ends the search and leaves the settings empty.
-/

namespace TreeLint.Settings

def fileName : String := "pyproject.toml"

def toolName : String := "tool"

def sectionName : String := "mess-detector"

/-- What ends the search with a failure. -/
inductive FileFault where
  | path (error : FileError)
  | notATable (typeName : String)
  | encoding (fault : Text.Utf8.Fault)
  | tooManyDigits (count : Nat)
  | tooDeep
  deriving DecidableEq, Repr

def FileFault.message : FileFault → String
  | .path error => error.message
  | .notATable typeName => "'" ++ typeName ++ "' object has no attribute 'get'"
  | .encoding fault => fault.message
  | .tooManyDigits count => Text.tooManyDigitsText count
  | .tooDeep => "maximum recursion depth exceeded"

/-- The settings that were found, and the path of a project file that could not be used. -/
structure Loaded where
  settings : Settings := {}
  unreadable : Option Path := none

/-- The warning about a project file that could not be used. -/
def unreadableText (path : Path) : String :=
  "Ignoring unreadable " ++ path.text ++ ": it could not be read or parsed"

/-- The section of a project file; anything that counts as false stands for an empty table. -/
def sectionOf (document : Fields) : Except FileFault Fields :=
  let found (v : Value) : Fields :=
    match v with
    | .table fields => fields
    | _ => []
  match document.get? toolName with
  | none => .ok []
  | some (.table tools) => .ok (((Fields.get? tools sectionName).map found).getD [])
  | some v => if v.truthy then .error (.notATable v.typeName) else .ok []

def ofBytes (path : Path) (bytes : ByteArray) : Except FileFault Loaded :=
  match Text.Utf8.decode bytes with
  | .error fault => .error (.encoding fault)
  | .ok text =>
    match Toml.read text with
    | .error .malformed => .ok { unreadable := some path }
    | .error (.tooManyDigits count) => .error (.tooManyDigits count)
    | .error .tooDeep => .error .tooDeep
    | .ok document => (sectionOf document).map fun fields => { settings := ⟨fields⟩ }

/-- The directories from a place up to the top. -/
def upwards (place : Place) : List Place :=
  (List.range (place.length + 1)).reverse.map place.take

/-- The paths at which the project file of a directory can stand, the nearest first. -/
def candidates (place : Place) : List Path :=
  (upwards place).map fun directory => ⟨.top, directory ++ [fileName]⟩

/-- The first path at which something stands. -/
def firstThere? (store : Store) : List Path → Except FileError (Option Path)
  | [] => .ok none
  | path :: rest =>
    match store.isThere path with
    | .error error => .error error
    | .ok true => .ok (some path)
    | .ok false => firstThere? store rest

/-- The settings for a run that starts in a directory, which need not be there. -/
def load (store : Store) (start : Path) : Except FileFault Loaded :=
  if start.hasNull then .error (.path ⟨.nullByte, start⟩)
  else
    match firstThere? store (candidates (start.resolve store.working)) with
    | .error error => .error (.path error)
    | .ok none => .ok {}
    | .ok (some path) =>
      match store.readBytes path with
      | .error _ => .ok { unreadable := some path }
      | .ok bytes => ofBytes path bytes

end TreeLint.Settings
