import Docblock.Text.Basic

namespace Docblock

/-! Paths are texts with slashes.  Two paths are alike when their components are. -/

namespace Path

inductive Component where
  | root
  | current
  | parent
  | entry (name : Text)
  deriving DecidableEq, Repr

def componentOf (part : Text) : Option Component :=
  if part = [] ∨ part = ['.'] then none
  else if part = ['.', '.'] then some .parent
  else some (.entry part)

/-- The components of a path.  Empty parts count for nothing, nor do single dots, except
at the start of a relative path. -/
def components (path : Text) : List Component :=
  match path.splitOn '/' with
  | [] => []
  | first :: rest =>
      let start :=
        if path.head? = some '/' then some .root
        else if first = ['.'] then some .current
        else componentOf first
      start.toList ++ rest.filterMap componentOf

def Component.key : Component → List Nat
  | .root => [0]
  | .current => [1]
  | .parent => [2]
  | .entry name => 3 :: name.map Char.toNat

def key (path : Text) : List (List Nat) :=
  (components path).map Component.key

def sort (paths : List Text) : List Text :=
  paths.mergeSort fun left right => ¬ key right < key left

def same (left right : Text) : Bool :=
  components left = components right

/-- Keeps the first of paths that are the same. -/
def unique : List Text → List Text
  | [] => []
  | path :: rest => path :: (unique rest).filter fun other => !same path other

def join (directory name : Text) : Text :=
  if directory = [] ∨ directory.getLast? = some '/' then directory ++ name
  else directory ++ '/' :: name

/-- What follows the last dot of a name, unless the name begins there. -/
def extension? (name : Text) : Option Text :=
  let after := (name.reverse.takeWhile (· ≠ '.')).reverse
  if name.length ≤ after.length + 1 then none else some after

end Path
end Docblock
