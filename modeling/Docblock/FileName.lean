import Docblock.Text.Basic

namespace Docblock

/-! Names of files, with both slashes as separators. -/

def isSeparator (c : Char) : Bool :=
  c = '/' || c = '\\'

namespace FileName

def base (name : Text) : Text :=
  (name.reverse.takeWhile fun c => !isSeparator c).reverse

/-- What follows the last dot of the last component, if anything does. -/
def extension? (name : Text) : Option Text :=
  let base := base name
  if '.' ∈ base then
    match (base.reverse.takeWhile (· ≠ '.')).reverse with
    | [] => none
    | extension => some extension
  else none

/-- The last component up to its first dot, or all of it when it begins with one. -/
def stem (name : Text) : Text :=
  let base := base name
  match base.takeWhile (· ≠ '.') with
  | [] => base
  | stem => stem

end FileName
end Docblock
