import TreeLint.Dump.Document
import TreeLint.Files.Store
import TreeLint.Json.Reader

/-!
# Loading tree dumps

A dump is read from a file, decoded as JSON, and turned into a tree.  Whatever is wrong on the way
is a load error that names the dump, or, once the path of the unit is known, the unit.  Some things
are failures of their own: an integer with too many digits to be read, or to be written where a
text is needed, and a path that no file can have.
-/

namespace TreeLint.Dump

/-- The number of levels that a dump may be nested. -/
def maxDepth : Nat := 990

/-- The path of a dump that was not read from a file. -/
def memoryPath : String := "<memory>"

inductive LoadCause where
  | unreadable (error : Store.TextError)
  | malformed (problem : Json.Problem) (text : List Char) (remaining : Nat)
  | tooDeep
  | schema (fault : SchemaFault)

def LoadCause.message : LoadCause → String
  | .unreadable error => "Cannot read tree dump: " ++ error.message
  | .malformed problem text remaining => "Invalid JSON: " ++ problem.message text remaining
  | .tooDeep => "Tree dump is nested too deeply to decode."
  | .schema fault => fault.message

structure LoadError where
  file : String
  cause : LoadCause

def LoadError.message (error : LoadError) : String := error.cause.message

/-- Why there is no tree. -/
inductive LoadFailure where
  | refused (error : LoadError)
  | tooManyDigits (count : Nat)
  | unusablePath (error : FileError)
  | unwritable

/-- The failure that a fault in the document of `file` comes to. -/
def LoadFailure.ofFault (file : String) : SchemaFault → LoadFailure
  | .unwritable => .unwritable
  | fault => .refused ⟨file, .schema fault⟩

/-- The tree that a document describes. -/
def ofDocument (path : String) (document : Value) : Except LoadFailure Tree :=
  match headerOf path document with
  | .error fault => .error (.ofFault path fault)
  | .ok (file, root) =>
    match addAll (Builder.start file) [(root, none)] with
    | .error fault => .error (.ofFault file fault)
    | .ok builder =>
      match builder.build with
      | .error error => .error (.ofFault file (.misplaced error))
      | .ok tree => .ok tree

/-- The tree of a dump given as text. -/
def ofText (path : String) (text : List Char) : Except LoadFailure Tree :=
  match Json.read maxDepth Text.maxDigits text with
  | .error (.malformed problem remaining) =>
    .error (.refused ⟨path, .malformed problem text remaining⟩)
  | .error .tooDeep => .error (.refused ⟨path, .tooDeep⟩)
  | .error (.tooManyDigits count) => .error (.tooManyDigits count)
  | .ok document => ofDocument path document

/-- The tree of a dump in a file. -/
def load (store : Store) (path : String) : Except LoadFailure Tree :=
  match store.readText (Path.parse path) with
  | .error (.file ⟨.nullByte, unusable⟩) => .error (.unusablePath ⟨.nullByte, unusable⟩)
  | .error error => .error (.refused ⟨path, .unreadable error⟩)
  | .ok text => ofText path text

end TreeLint.Dump
