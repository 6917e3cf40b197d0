import Docblock.Error

namespace Docblock

inductive FileKind where
  | file
  | directory
  deriving DecidableEq, Repr

/-- How files are looked at, and where warnings go. -/
structure FileView (m : Type → Type) where
  kind? : Text → m (Option FileKind)
  /-- The names in a directory, in any order. -/
  entries : Text → m (Except FileFault (List Text))
  read : Text → m (Except FileFault (List UInt8))
  standardInput : m (Except FileFault (List UInt8))
  warn : Warning → m Unit

namespace FileView

def warnWhen {m : Type → Type} [Monad m] (view : FileView m) (condition : Bool)
    (warning : Warning) : m Unit :=
  if condition then view.warn warning else pure ()

def logging (view : FileView Id) : FileView (StateM (List Warning)) where
  kind? path := pure (view.kind? path)
  entries path := pure (view.entries path)
  read path := pure (view.read path)
  standardInput := pure view.standardInput
  warn warning := modify fun warnings => warnings ++ [warning]

end FileView
end Docblock
