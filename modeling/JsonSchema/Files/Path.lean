import JsonSchema.Text.Split

/-!
# Paths

A path is a list of names that lead from the working directory, or from the top, to a file. In its
text, empty names and single dots do not count; a double dot stays, as it may lead out of a
directory that is reached over a detour. Two slashes at the front start a path at the top that is not
the same as one with a single slash; more than two count as one.
-/

namespace JsonSchema

inductive Path.Start where
  | workingDirectory
  | top
  | topOfTwoSlashes
deriving DecidableEq

@[ext]
structure Path where
  start : Path.Start := .workingDirectory
  names : List String
deriving DecidableEq

namespace Path

def startOf : List Char → Start
  | '/' :: '/' :: '/' :: _ => .top
  | '/' :: '/' :: _ => .topOfTwoSlashes
  | '/' :: _ => .top
  | _ => .workingDirectory

def ofString (text : String) : Path where
  start := startOf text.toList
  names := ((Text.splitOn '/' text.toList).map String.ofList).filter fun name =>
    name ≠ "" && name ≠ "."

def toString (path : Path) : String :=
  match path.start with
  | .topOfTwoSlashes => "//" ++ "/".intercalate path.names
  | .top => "/" ++ "/".intercalate path.names
  | .workingDirectory => if path.names.isEmpty then "." else "/".intercalate path.names

instance : ToString Path := ⟨toString⟩

def child (path : Path) (name : String) : Path := { path with names := path.names ++ [name] }

/-- The part of a name from its last dot on. A dot at either end of the name starts no suffix. -/
def suffixOf (name : List Char) : List Char :=
  let afterDot := (name.reverse.takeWhile (· ≠ '.')).reverse
  if afterDot.isEmpty || name.length ≤ afterDot.length + 1 then [] else '.' :: afterDot

def suffix (path : Path) : String :=
  String.ofList ((suffixOf (path.names.getLastD "").toList).map Char.toLower)

def isYaml (path : Path) : Bool := path.suffix = ".yaml" || path.suffix = ".yml"

def isDocument (path : Path) : Bool := path.suffix = ".json" || path.isYaml

end Path

end JsonSchema
