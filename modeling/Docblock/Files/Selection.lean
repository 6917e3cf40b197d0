import Docblock.DocFile
import Docblock.Error
import Docblock.Files.Glob.Search
import Docblock.Text.Utf8

namespace Docblock.Selection

/-! The files that arguments stand for.  An argument is a file, a directory or a pattern;
arguments keep their order, and a path that comes up again is left out. -/

variable {m : Type → Type} [Monad m]

def foldChar (c : Char) : Char :=
  c.toLower

/-- Whether a name has one of some extensions, letters of either case alike. -/
def hasExtension (extensions : List Text) (name : Text) : Bool :=
  (Path.extension? name).any fun extension =>
    extensions.any fun known => known.map foldChar = extension.map foldChar

def inDirectory (view : FileView m) (extensions : List Text) (directory : Text) :
    m (Except Error (List Text)) := do
  match ← view.entries directory with
  | .error fault => pure (.error (.fileSystem directory fault))
  | .ok names =>
      let paths ← names.filterMapM fun name => do
        let path := Path.join directory name
        if (← view.kind? path) = some .file then
          pure (if hasExtension extensions name then some path else none)
        else pure none
      pure (.ok (Path.sort paths))

def matching (view : FileView m) (pattern : Text) : m (Except Error (List Text)) :=
  match Glob.Pattern.parse pattern with
  | .error fault => pure (.error (.invalidPattern pattern fault))
  | .ok parsed => do
      let paths ← Glob.files view parsed
      view.warnWhen paths.isEmpty (.nothingMatched pattern)
      pure (.ok (Path.sort paths))

def ofArgument (view : FileView m) (extensions : List Text) (argument : Text) :
    m (Except Error (List Text)) := do
  match ← view.kind? argument with
  | some .file => pure (.ok [argument])
  | some .directory => inDirectory view extensions argument
  | none => matching view argument

/-- Does one thing after another, up to the first error. -/
def inOrder {α β : Type} (action : α → m (Except Error β)) :
    List α → m (Except Error (List β))
  | [] => pure (.ok [])
  | first :: rest => do
      match ← action first with
      | .error error => pure (.error error)
      | .ok result =>
          match ← inOrder action rest with
          | .error error => pure (.error error)
          | .ok results => pure (.ok (result :: results))

def paths (view : FileView m) (extensions arguments : List Text) :
    m (Except Error (List Text)) := do
  match ← inOrder (ofArgument view extensions) arguments with
  | .error error => pure (.error error)
  | .ok selected => pure (.ok (Path.unique selected.flatten))

/-- Bytes as a file of some name; those that are no text are replaced. -/
def decoded (view : FileView m) (name : Text) (bytes : List UInt8) : m SourceFile := do
  view.warnWhen (Text.decode? bytes).isNone (.notText name)
  pure ⟨name, Text.decode bytes⟩

def readFile (view : FileView m) (path : Text) : m (Except Error SourceFile) := do
  match ← view.read path with
  | .error fault => pure (.error (.fileSystem path fault))
  | .ok bytes => do
      let file ← decoded view path bytes
      pure (.ok file)

def readInput (view : FileView m) : Option Text → m (Except Error (List SourceFile))
  | none => pure (.ok [])
  | some name => do
      match ← view.standardInput with
      | .error fault => pure (.error (.fileSystem "<stdin>".toList fault))
      | .ok bytes => do
          let file ← decoded view name bytes
          pure (.ok [file])

/-- The files to document: standard input first, and then the files of the arguments. -/
def files (view : FileView m) (extensions : List Text) (inputName : Option Text)
    (arguments : List Text) : m (Except Error (List SourceFile)) := do
  match ← readInput view inputName with
  | .error error => pure (.error error)
  | .ok input =>
      match ← paths view extensions arguments with
      | .error error => pure (.error error)
      | .ok paths =>
          match ← inOrder (readFile view) paths with
          | .error error => pure (.error error)
          | .ok files => pure (.ok (input ++ files))

end Docblock.Selection
