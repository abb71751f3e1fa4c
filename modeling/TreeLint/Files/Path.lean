/-!
# Paths

A path is a list of names, read from the top of the file system or from the working directory.
Empty names and single dots are dropped when a path is read; double dots are kept, since what they
mean depends on the directories that are there.
-/

namespace TreeLint

/-- Where a path begins.  Two slashes in front are kept apart from one; three or more count as one.
-/
inductive Anchor where
  | working
  | top
  | doubleTop
  deriving DecidableEq, Repr

def Anchor.text : Anchor → String
  | .working => ""
  | .top => "/"
  | .doubleTop => "//"

def Anchor.ofText (text : List Char) : Anchor :=
  match text with
  | '/' :: '/' :: '/' :: _ => .top
  | '/' :: '/' :: _ => .doubleTop
  | '/' :: _ => .top
  | _ => .working

/-- The names that lead from the top of the file system to a file or directory. -/
abbrev Place := List String

structure Path where
  anchor : Anchor
  names : List String
  deriving DecidableEq, Repr

namespace Path

def parse (text : String) : Path where
  anchor := .ofText text.toList
  names :=
    ((text.toList.splitOn '/').map String.ofList).filter fun name => name != "" && name != "."

def text (path : Path) : String :=
  if path.anchor = .working ∧ path.names = [] then "."
  else path.anchor.text ++ "/".intercalate path.names

/-- A path with a null character in it cannot be handed to a file system. -/
def hasNull (path : Path) : Bool := path.names.any fun name => name.toList.contains '\x00'

/-- The path without its last name. -/
def parent (path : Path) : Path := { path with names := path.names.dropLast }

/-- The names of a place below this path, written after it. -/
def below (path : Path) (names : List String) : Path := { path with names := path.names ++ names }

/-- The place that the names of a path start from. -/
def start (path : Path) (working : Place) : Place :=
  match path.anchor with
  | .working => working
  | .top | .doubleTop => []

/-- The place that a path leads to when double dots cancel the name before them, whether or not that
name is there.  Above the top is the top. -/
def resolve (path : Path) (working : Place) : Place :=
  path.names.foldl
    (fun place name => if name = ".." then place.dropLast else place ++ [name])
    (path.start working)

end Path

end TreeLint
