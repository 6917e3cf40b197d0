import Docblock.Text.Basic

namespace Docblock

inductive FileFault where
  | notFound
  | notDirectory
  | isDirectory
  | nameTooLong
  /-- The bytes that were read are no text. -/
  | notText
  | other (code : Nat) (description : Text)
  deriving DecidableEq, Repr

namespace FileFault

/-- The number by which the system knows a fault of its own. -/
def code? : FileFault → Option Nat
  | .notFound => some 2
  | .notDirectory => some 20
  | .isDirectory => some 21
  | .nameTooLong => some 36
  | .notText => none
  | .other code _ => some code

def description : FileFault → Text
  | .notFound => "No such file or directory".toList
  | .notDirectory => "Not a directory".toList
  | .isDirectory => "Is a directory".toList
  | .nameTooLong => "File name too long".toList
  | .notText => "stream did not contain valid UTF-8".toList
  | .other _ description => description

def message (fault : FileFault) : Text :=
  match fault.code? with
  | some code => fault.description ++ " (os error ".toList ++ Nat.toDigits 10 code ++ [')']
  | none => fault.description

end FileFault
end Docblock
