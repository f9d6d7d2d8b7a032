/-!
# Files by path

A tree of files as a value, and how a path is followed in it.

* `FileTree.entry?` : what stands at a place;
* `FileTree.read` : the text that a path names, or why it cannot be read;
* `FileTree.ofFiles` : a working directory that holds given files.
-/

namespace Gridcall

/-- Why a file cannot be read. -/
inductive FileError where
  | notFound
  /-- The path goes on below a file. -/
  | notDirectory
  | isDirectory
  | nameTooLong
  /-- What is read is not UTF-8. -/
  | notText
  /-- Another reason, in the words of the system. -/
  | other (reason : String)
deriving DecidableEq

def FileError.message : FileError → String
  | notFound => "No such file or directory (os error 2)"
  | notDirectory => "Not a directory (os error 20)"
  | isDirectory => "Is a directory (os error 21)"
  | nameTooLong => "File name too long (os error 36)"
  | notText => "stream did not contain valid UTF-8"
  | other reason => reason

/-- What stands at a place. -/
inductive Entry where
  | file (text : String)
  | directory

/-- A tree of files. A place in it is the list of the names that lead there from the root. -/
structure FileTree where
  files : List (List String × String)
  here : List String

namespace FileTree

/-- What stands at a place. Above a file, and at the working directory and above it, there are
directories. -/
def entry? (t : FileTree) (place : List String) : Option Entry :=
  match t.files.lookup place with
  | some text => some (.file text)
  | none =>
    if place.isPrefixOf t.here || t.files.any fun f => place.isPrefixOf f.1 then some .directory
    else none

def maxName : Nat := 255

def maxPath : Nat := 4095

/-- The place that one name of a path leads to from a directory. -/
def enter (t : FileTree) (place : List String) (name : String) : Except FileError (List String) :=
  match t.entry? place with
  | none => .error .notFound
  | some (.file _) => .error .notDirectory
  | some .directory =>
    if name = "" ∨ name = "." then .ok place
    else if name = ".." then .ok place.dropLast
    else if maxName < name.utf8ByteSize then .error .nameTooLong
    else .ok (place ++ [name])

/-- The place that a path leads to, from the root if it begins with a slash. -/
def follow (t : FileTree) (path : String) : Except FileError (List String) :=
  if path = "" then .error .notFound
  else if maxPath < path.utf8ByteSize then .error .nameTooLong
  else (path.splitOn "/").foldlM t.enter (if path.front = '/' then [] else t.here)

def read (t : FileTree) (path : String) : Except FileError String := do
  match t.entry? (← t.follow path) with
  | none => throw .notFound
  | some .directory => throw .isDirectory
  | some (.file text) => return text

def namesOf (path : String) : List String :=
  (path.splitOn "/").filter fun name => name ≠ "" && name ≠ "."

/-- A working directory, new among temporary files, that holds files with the given paths. Beside it
there is only the null device, which is empty. -/
def ofFiles (files : List (String × String)) : FileTree where
  files := (["dev", "null"], "") :: files.map fun f => (["tmp", "work"] ++ namesOf f.1, f.2)
  here := ["tmp", "work"]

end FileTree

end Gridcall
