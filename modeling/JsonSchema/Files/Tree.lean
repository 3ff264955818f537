import JsonSchema.Files.Path
import JsonSchema.Members

/-!
# Files

Files and directories form a tree, in which a place is a list of names from the top. `Files.read`
and `Files.write` follow a path to its place; writing creates the directories that are missing on
the way.
-/

namespace JsonSchema

inductive FileTree where
  | file (text : String)
  | directory (entries : List (String × FileTree))

inductive FileError where
  | missing
  | isDirectory
  | notADirectory
  /-- There is a file in the place of a directory that is to be created. -/
  | exists
deriving DecidableEq

namespace FileTree

def find? : FileTree → (place : List String) → Option FileTree
  | tree, [] => some tree
  | .file _, _ :: _ => none
  | .directory entries, name :: rest => do find? (← entries.lookup name) rest

def put (new : FileTree) : (place : List String) → FileTree → FileTree
  | [], _ => new
  | _ :: _, .file text => .file text
  | name :: rest, .directory entries =>
    .directory (Members.insert name
      (put new rest ((entries.lookup name).getD (.directory []))) entries)

/-- The place that names lead to from a place. Every place but the last is a directory. -/
def follow (tree : FileTree) (place : List String) : List String → Except FileError (List String)
  | [] => .ok place
  | name :: rest =>
    match tree.find? place with
    | none => .error .missing
    | some (.file _) => .error .notADirectory
    | some (.directory _) =>
      tree.follow (if name = ".." then place.dropLast else place ++ [name]) rest

/-- Creates the directories on the way that names lead from a place; gives the tree with them and
the place of the last. -/
def createDirectories (tree : FileTree) (place : List String) :
    List String → Except FileError (FileTree × List String)
  | [] => .ok (tree, place)
  | name :: rest =>
    if name = ".." then tree.createDirectories place.dropLast rest
    else match tree.find? (place ++ [name]) with
      | some (.directory _) => tree.createDirectories (place ++ [name]) rest
      | some (.file _) => .error (if rest.isEmpty then .exists else .notADirectory)
      | none =>
        (put (.directory []) (place ++ [name]) tree).createDirectories (place ++ [name]) rest

mutual

def files (place : List String) : FileTree → List (List String × String)
  | .file text => [(place, text)]
  | .directory entries => filesOf place entries

def filesOf (place : List String) : List (String × FileTree) → List (List String × String)
  | [] => []
  | (name, tree) :: rest => files (place ++ [name]) tree ++ filesOf place rest

end

end FileTree

/-- A tree and the place from which paths start that are not absolute. -/
structure Files where
  tree : FileTree := .directory []
  workingDirectory : List String := []

namespace Files

def start (files : Files) (path : Path) : List String :=
  match path.start with
  | .workingDirectory => files.workingDirectory
  | .top | .topOfTwoSlashes => []

def find (files : Files) (path : Path) : Except FileError FileTree := do
  match files.tree.find? (← files.tree.follow (files.start path) path.names) with
  | some tree => return tree
  | none => .error .missing

/-- Every line end is read as one line feed. -/
def unifyLineEnds : List Char → List Char
  | [] => []
  | '\r' :: '\n' :: rest => '\n' :: unifyLineEnds rest
  | '\r' :: rest => '\n' :: unifyLineEnds rest
  | c :: rest => c :: unifyLineEnds rest

def read (files : Files) (path : Path) : Except FileError String := do
  match ← files.find path with
  | .file text => return String.ofList (unifyLineEnds text.toList)
  | .directory _ => .error .isDirectory

def write (files : Files) (path : Path) (text : String) : Except FileError Files := do
  let (tree, place) ← files.tree.createDirectories (files.start path) path.names.dropLast
  let place ← tree.follow place path.names.getLast?.toList
  match tree.find? place with
  | some (.directory _) => .error .isDirectory
  | _ => return { files with tree := FileTree.put (.file text) place tree }

def addDirectory (files : Files) (path : Path) : Except FileError Files := do
  let (tree, _) ← files.tree.createDirectories (files.start path) path.names
  return { files with tree }

def changedSince (files earlier : Files) : List (List String × String) :=
  (files.tree.files []).filter fun (place, text) =>
    match earlier.tree.find? place with
    | some (.file old) => old ≠ text
    | _ => true

/-- The documents that a path selects: a file with a suitable suffix, or the entries of a directory
that have one, in the order of their names. -/
def documentsAt (files : Files) (path : Path) : List Path :=
  match files.find path with
  | .ok (.directory entries) =>
    (((Members.names entries).mergeSort fun a b => decide (a ≤ b)).map path.child).filter
      Path.isDocument
  | .ok (.file _) => if path.isDocument then [path] else []
  | .error _ => []

def documents (files : Files) (paths : List Path) : List Path := paths.flatMap files.documentsAt

end Files

end JsonSchema
