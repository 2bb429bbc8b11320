import CycleBridge.Files.Entry

/-!
# Trees of files

A file system given as a value. A place is the list of names that leads to it from the root. A path
is followed name by name from the root or from the working directory, and each step starts from a
directory: `a/../b` leads nowhere if there is no `a`.
-/

namespace CycleBridge

/-- Files and directories by their places, and the place where paths start that do not start at the
root. Whatever lies above a place is a directory. -/
structure FileTree where
  files : List (List String × ByteArray) := []
  directories : List (List String) := []
  working : List String := []

namespace FileTree

/-- What is at a place. -/
def entryAt (t : FileTree) (place : List String) : PathEntry :=
  match t.files.lookup place with
  | some bytes => .file bytes
  | none =>
    let places := t.working :: t.directories ++ t.files.map (·.1)
    if places.any place.isPrefixOf then .fault .directory else .fault .missing

/-- How many bytes a name may have. -/
def maxName : Nat := 255

/-- How many bytes a path may have. -/
def maxPath : Nat := 4095

/-- What the names of a path lead to from a place. An empty name and a dot stay where they are, two
dots go up, and above the root there is the root. -/
def follow (t : FileTree) (place : List String) : List String → PathEntry
  | [] => t.entryAt place
  | name :: rest =>
    match t.entryAt place with
    | .fault .directory =>
      if name = "" ∨ name = "." then follow t place rest
      else if name = ".." then follow t place.dropLast rest
      else if maxName < name.utf8ByteSize then .fault .longName
      else follow t (place ++ [name]) rest
    | .file _ => .fault .blocked
    | stop => stop

/-- What a path leads to. -/
def lookup (t : FileTree) (path : String) : PathEntry :=
  if path.toList.contains '\x00' then .fault .badName
  else if path.isEmpty then .fault .missing
  else if maxPath < path.utf8ByteSize then .fault .longName
  else t.follow (if path.toList.head? = some '/' then [] else t.working) (path.splitOn "/")

/-- The tree with a file whose path leads down from the working directory. -/
def addFile (t : FileTree) (path : String) (bytes : ByteArray) : FileTree :=
  let names := (path.splitOn "/").filter fun name => name ≠ "" ∧ name ≠ "."
  { t with files := (t.working ++ names, bytes) :: t.files }

end FileTree

end CycleBridge
