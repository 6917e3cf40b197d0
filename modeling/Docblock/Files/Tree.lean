import Docblock.Files.View

namespace Docblock

/-- Files and directories, each with the names that lead to it from the root. -/
structure FileTree where
  workingDirectory : List Text
  directories : List (List Text)
  files : List (List Text × List UInt8)
  deriving DecidableEq, Repr

namespace FileTree

/-- Whether a place is a directory: a listed one, or one on the way to something. -/
def isDirectory (tree : FileTree) (place : List Text) : Bool :=
  place.isPrefixOf tree.workingDirectory ||
    tree.directories.any (place.isPrefixOf ·) ||
    tree.files.any fun file => place.isPrefixOf file.1 && place.length < file.1.length

def kindAt (tree : FileTree) (place : List Text) : Option FileKind :=
  match tree.files.lookup place with
  | some _ => some .file
  | none => if tree.isDirectory place then some .directory else none

/-! Paths are followed part by part, each from a directory. -/

def longestName : Nat := 255

def longestPath : Nat := 4096

/-- The place that parts of a path lead to from another. -/
def follow (tree : FileTree) : List Text → List Text → Except FileFault (List Text)
  | place, [] => .ok place
  | place, part :: rest =>
      if tree.kindAt place ≠ some .directory then .error .notDirectory
      else if part = [] ∨ part = ['.'] then follow tree place rest
      else if part = ['.', '.'] then follow tree place.dropLast rest
      else if longestName < part.byteLength then .error .nameTooLong
      else if tree.kindAt (place ++ [part]) = none then .error .notFound
      else follow tree (place ++ [part]) rest

def origin (tree : FileTree) (path : Text) : List Text :=
  if path.head? = some '/' then [] else tree.workingDirectory

def resolve (tree : FileTree) (path : Text) : Except FileFault (List Text) :=
  if path = [] then .error .notFound
  else if longestPath ≤ path.byteLength then .error .nameTooLong
  else tree.follow (tree.origin path) (path.splitOn '/')

def kind? (tree : FileTree) (path : Text) : Option FileKind :=
  match tree.resolve path with
  | .ok place => tree.kindAt place
  | .error _ => none

def namesBelow (tree : FileTree) (place : List Text) : List Text :=
  ((tree.workingDirectory :: tree.directories ++ tree.files.map (·.1)).filterMap fun other =>
    (place.isPrefixOf? other).bind List.head?).eraseDups

def entries (tree : FileTree) (path : Text) : Except FileFault (List Text) := do
  let place ← tree.resolve path
  if tree.kindAt place = some .directory then .ok (tree.namesBelow place)
  else .error .notDirectory

def read (tree : FileTree) (path : Text) : Except FileFault (List UInt8) := do
  let place ← tree.resolve path
  match tree.files.lookup place with
  | some bytes => .ok bytes
  | none => .error .isDirectory

def put (place : List Text) (bytes : List UInt8) :
    List (List Text × List UInt8) → List (List Text × List UInt8)
  | [] => [(place, bytes)]
  | (other, old) :: rest =>
      if other = place then (place, bytes) :: rest else (other, old) :: put place bytes rest

/-- The directory that a new file would be put in, and its name.  Slashes at the end of a
path belong to neither. -/
def parentAndName (path : Text) : List Text × Text :=
  let parts := ((path.reverse.dropWhile (· = '/')).reverse).splitOn '/'
  (parts.dropLast, parts.getLastD [])

def write (tree : FileTree) (path : Text) (bytes : List UInt8) : Except FileFault FileTree := do
  if path = [] then .error .notFound
  else if longestPath ≤ path.byteLength then .error .nameTooLong
  else
    let (parent, name) := parentAndName path
    if name = [] ∨ name = ['.'] ∨ name = ['.', '.'] then
      let _ ← tree.resolve path
      .error .isDirectory
    else
      let place ← tree.follow (tree.origin path) parent
      if tree.kindAt place ≠ some .directory then .error .notDirectory
      else if path.getLast? = some '/' then .error .isDirectory
      else if longestName < name.byteLength then .error .nameTooLong
      else if tree.kindAt (place ++ [name]) = some .directory then .error .isDirectory
      else .ok { tree with files := put (place ++ [name]) bytes tree.files }

/-- Everything that stands in a tree can be seen. -/
def view (tree : FileTree) (standardInput : List UInt8) : FileView Id where
  kind? := tree.kind?
  entries := tree.entries
  read := tree.read
  standardInput := .ok standardInput
  warn _ := ()

end FileTree

/-- Files with the view that a command has of them.  Anything that is looked at may be out of
sight or out of reach, and a file may be refused when it is written. -/
structure FileSystem where
  tree : FileTree
  view : FileView Id
  refusal? : Text → Option FileFault

namespace FileSystem

/-- A file system without faults of its own. -/
def ofTree (tree : FileTree) (standardInput : List UInt8) : FileSystem :=
  ⟨tree, tree.view standardInput, fun _ => none⟩

/-- A write that fails leaves the files alone. -/
def write (system : FileSystem) (path : Text) (bytes : List UInt8) : Except FileFault FileTree :=
  match system.refusal? path with
  | some fault => .error fault
  | none => system.tree.write path bytes

end FileSystem
end Docblock
