import TreeLint.Files.Path
import TreeLint.Text.Newlines
import TreeLint.Text.Quoted
import TreeLint.Text.Utf8

/-!
# A file system

A store holds files and directories, each under the names that lead to it from the top, and the
place of the working directory.  Paths are followed name by name, as an operating system does: a
double dot needs the directory before it to be there, nothing lies below a file, and a name that is
too long is an error once it is reached.  A path that is too long as a whole is not followed at
all, and one with a null character is not even handed over.
-/

namespace TreeLint

inductive FileProblem where
  | missing
  | notADirectory
  | isADirectory
  | exists
  | nameTooLong
  | nullByte
  | tooDeep
  deriving DecidableEq, Repr

def FileProblem.text : FileProblem → String
  | .missing => "[Errno 2] No such file or directory"
  | .notADirectory => "[Errno 20] Not a directory"
  | .isADirectory => "[Errno 21] Is a directory"
  | .exists => "[Errno 17] File exists"
  | .nameTooLong => "[Errno 36] File name too long"
  | .nullByte => "embedded null byte"
  | .tooDeep => "too many missing directories"

structure FileError where
  problem : FileProblem
  path : Path
  deriving DecidableEq, Repr

/-- What is said about an error names its path, unless the path was never handed over. -/
def FileError.message (error : FileError) : String :=
  if error.problem = .nullByte then error.problem.text
  else error.problem.text ++ ": " ++ Text.quoted error.path.text

structure Store where
  files : List (Place × ByteArray) := []
  directories : List Place := []
  /-- The working directory. -/
  working : Place := []

/-- What a path can lead to. -/
inductive Found where
  | file (place : Place) (content : ByteArray)
  | directory (place : Place)

namespace Store

def content? (store : Store) (place : Place) : Option ByteArray :=
  (store.files.find? fun entry => entry.1 == place).map Prod.snd

def hasDirectory (store : Store) (place : Place) : Bool :=
  place.isEmpty || store.directories.contains place

/-- The greatest length of a name, in bytes. -/
def maxNameSize : Nat := 255

/-- The greatest length of a path, in bytes. -/
def maxPathSize : Nat := 4095

/-- Follows names from a directory on.  Above the top is the top. -/
def follow (store : Store) (here : Place) : List String → Except FileProblem Found
  | [] => .ok (.directory here)
  | name :: rest =>
    if name = ".." then follow store here.dropLast rest
    else if maxNameSize < name.utf8ByteSize then .error .nameTooLong
    else
      let next := here ++ [name]
      if store.hasDirectory next then follow store next rest
      else
        match store.content? next with
        | some content =>
          if rest.isEmpty then .ok (.file next content) else .error .notADirectory
        | none => .error .missing

def find (store : Store) (path : Path) : Except FileProblem Found :=
  if path.hasNull then .error .nullByte
  else if maxPathSize < path.text.utf8ByteSize then .error .nameTooLong
  else store.follow (path.start store.working) path.names

def isDirectory (store : Store) (path : Path) : Bool :=
  match store.find path with
  | .ok (.directory _) => true
  | _ => false

/-- Whether something stands at a path.  Where a name is too long, that cannot be told. -/
def isThere (store : Store) (path : Path) : Except FileError Bool :=
  match store.find path with
  | .ok _ => .ok true
  | .error .nameTooLong => .error ⟨.nameTooLong, path⟩
  | .error _ => .ok false

/-! ## Reading -/

def readBytes (store : Store) (path : Path) : Except FileError ByteArray :=
  match store.find path with
  | .ok (.file _ content) => .ok content
  | .ok (.directory _) => .error ⟨.isADirectory, path⟩
  | .error problem => .error ⟨problem, path⟩

/-- Why a text file could not be read. -/
inductive TextError where
  | file (error : FileError)
  | encoding (fault : Text.Utf8.Fault)
  deriving DecidableEq, Repr

def TextError.message : TextError → String
  | .file error => error.message
  | .encoding fault => fault.message

/-- The text of a file, with its line ends made newlines. -/
def readText (store : Store) (path : Path) : Except TextError (List Char) :=
  match store.readBytes path with
  | .error error => .error (.file error)
  | .ok bytes =>
    match Text.Utf8.decode bytes with
    | .error fault => .error (.encoding fault)
    | .ok text => .ok (Text.unifyNewlines text)

/-! ## Writing -/

def setContent (place : Place) (content : ByteArray) :
    List (Place × ByteArray) → List (Place × ByteArray)
  | [] => [(place, content)]
  | (p, c) :: rest =>
    if p = place then (p, content) :: rest else (p, c) :: setContent place content rest

def putFile (store : Store) (place : Place) (content : ByteArray) : Store :=
  { store with files := setContent place content store.files }

def putDirectory (store : Store) (place : Place) : Store :=
  if store.hasDirectory place then store
  else { store with directories := store.directories ++ [place] }

/-- The place of a new file or directory: its parent has to be there. -/
def newPlace (store : Store) (path : Path) : Except FileProblem Place :=
  match store.find path.parent, path.names.getLast? with
  | .ok (.directory here), some name => .ok (here ++ [name])
  | .ok (.file _ _), _ => .error .notADirectory
  | .ok (.directory _), none => .error .exists
  | .error problem, _ => .error problem

/-- Makes one directory in a directory that is there. -/
def makeDirectory (store : Store) (path : Path) : Except FileProblem Store :=
  match store.find path with
  | .ok _ => .error .exists
  | .error .missing => (store.newPlace path).map store.putDirectory
  | .error problem => .error problem

/-- What a write leaves behind: the store after it, and the error that ended it. -/
abbrev Attempt := Option FileError × Store

/-- Makes one directory; one that is there already will do. -/
def ensureDirectory (store : Store) (path : Path) : Attempt :=
  match store.makeDirectory path with
  | .ok store => (none, store)
  | .error problem =>
    if store.isDirectory path then (none, store) else (some ⟨problem, path⟩, store)

/-- The most directories that are missing above one that is to be made. -/
def maxMissing : Nat := 987

/-- Makes a directory and the missing ones above it, of which there are at most `room`.  The names
are given backwards. -/
def ensureDirectories (store : Store) (anchor : Anchor) (room : Nat) : List String → Attempt
  | [] => store.ensureDirectory ⟨anchor, []⟩
  | name :: above =>
    let path : Path := ⟨anchor, (name :: above).reverse⟩
    match store.makeDirectory path with
    | .error .missing =>
      if room = 0 then (some ⟨.tooDeep, path⟩, store)
      else
        match ensureDirectories store anchor (room - 1) above with
        | (none, store) => store.ensureDirectory path
        | failed => failed
    | _ => store.ensureDirectory path

/-- Writes a file into a directory that is there. -/
def writeFile (store : Store) (path : Path) (text : String) : Attempt :=
  let bytes := Text.Utf8.encode text
  match store.find path with
  | .ok (.file place _) => (none, store.putFile place bytes)
  | .ok (.directory _) => (some ⟨.isADirectory, path⟩, store)
  | .error .missing =>
    match store.newPlace path with
    | .ok place => (none, store.putFile place bytes)
    | .error problem => (some ⟨problem, path⟩, store)
  | .error problem => (some ⟨problem, path⟩, store)

/-- Writes a file, making the directories above it.  These stay when the file cannot be written. -/
def write (store : Store) (path : Path) (text : String) : Attempt :=
  match store.ensureDirectories path.anchor maxMissing path.parent.names.reverse with
  | (none, store) => store.writeFile path text
  | failed => failed

/-- The files that are new in `store` or differ from what they were. -/
def changedSince (store before : Store) : List (Place × ByteArray) :=
  store.files.filter fun entry =>
    match before.content? entry.1 with
    | some content => content.toList != entry.2.toList
    | none => true

/-- Adds a file together with the directories that lead to it. -/
def withFile (store : Store) (place : Place) (content : ByteArray) : Store :=
  let above := (List.range place.length).map place.take
  (above.foldl putDirectory store).putFile place content

/-- Adds a directory together with those that lead to it. -/
def withDirectory (store : Store) (place : Place) : Store :=
  ((List.range (place.length + 1)).map place.take).foldl putDirectory store

/-! ## Collecting -/

/-- The files below a directory whose name ends with `suffix`, as paths that start with the path of
the directory, in ascending order. -/
def filesBelow (store : Store) (path : Path) (place : Place) (suffix : String) : List String :=
  let found := store.files.filterMap fun entry =>
    if place.isPrefixOf entry.1 && place.length < entry.1.length then
      match entry.1.getLast? with
      | some name =>
        if suffix.toList.isSuffixOf name.toList then
          some (path.below (entry.1.drop place.length)).text
        else none
      | none => none
    else none
  found.mergeSort fun a b => decide (a ≤ b)

/-- The files that a path stands for: those below it when it leads to a directory, else itself.
Where a name is too long, that cannot be told. -/
def expand (store : Store) (suffix : String) (path : Path) : Except FileError (List String) :=
  match store.find path with
  | .ok (.directory place) => .ok (store.filesBelow path place suffix)
  | .error .nameTooLong => .error ⟨.nameTooLong, path⟩
  | _ => .ok [path.text]

/-- Directories are replaced by the files below them; all other paths are kept. -/
def collect (store : Store) (paths : List String) (suffix : String) :
    Except FileError (List String) :=
  (paths.mapM fun text => store.expand suffix (Path.parse text)).map List.flatten

end Store

end TreeLint
