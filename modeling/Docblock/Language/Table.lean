import Docblock.FileName
import Docblock.Language.Basic
import Docblock.Text.Case.Basic

namespace Docblock

/-- The known languages, each under its extension, in the order of extensions. -/
structure LanguageTable where
  entries : List (Text × Language)
  deriving DecidableEq, Repr

namespace LanguageTable

def empty : LanguageTable :=
  ⟨[]⟩

/-- Puts an entry at its place among entries in order, over one with the same key. -/
def put (key : Text) (language : Language) :
    List (Text × Language) → List (Text × Language)
  | [] => [(key, language)]
  | (other, entry) :: rest =>
      if key < other then (key, language) :: (other, entry) :: rest
      else if key = other then (key, language) :: rest
      else (other, entry) :: put key language rest

/-- A language as the table keeps it: its extension in lowercase, without leading dots. -/
def entryOf (language : Language) : Language :=
  { language with extension := Text.lower (language.extension.dropWhile (· = '.')) }

/-- Changes to a table with an answer.  A change that fails leaves the table as it is by then. -/
abbrev Edit (ε : Type) := ExceptT ε (StateM LanguageTable)

namespace Edit

/-- The answer of a change, and the table that is there afterwards. -/
def on {ε α : Type} (edit : Edit ε α) (table : LanguageTable) : Except ε α × LanguageTable :=
  edit.run.run table

/-- Adds a language, or replaces the one with its extension. -/
def insert (language : Language) : Edit (Text × Language.Fault) Unit := do
  let entry := entryOf language
  match entry.fault? with
  | some fault => throw (entry.extension, fault)
  | none => modify fun table => ⟨put entry.extension entry table.entries⟩

/-- Adds languages in order to a copy, which takes the place of the table when all of them went
through. -/
def insertAll (languages : List Language) : Edit (Text × Language.Fault) Unit := do
  let (answer, staged) := on (forM languages insert) (← get)
  match answer with
  | .error refused => throw refused
  | .ok () => set staged

end Edit

def changed {ε α : Type} (table : LanguageTable) (edit : Edit ε α) :
    Except ε (LanguageTable × α) :=
  match edit.on table with
  | (.error fault, _) => .error fault
  | (.ok answer, edited) => .ok (edited, answer)

def insert (table : LanguageTable) (language : Language) :
    Except (Text × Language.Fault) LanguageTable :=
  (table.changed (.insert language)).map (·.1)

def insertAll (table : LanguageTable) (languages : List Language) :
    Except (Text × Language.Fault) LanguageTable :=
  (table.changed (.insertAll languages)).map (·.1)

def get? (table : LanguageTable) (extension : Text) : Option Language :=
  table.entries.lookup extension.lower

def forFile? (table : LanguageTable) (name : Text) : Option Language :=
  (FileName.extension? name).bind table.get?

def extensions (table : LanguageTable) : List Text :=
  table.entries.map (·.1)

def languages (table : LanguageTable) : List Language :=
  table.entries.map (·.2)

def size (table : LanguageTable) : Nat :=
  table.entries.length

def slashStar (extension : String) : Language where
  extension := extension.toList
  blockStart := "/*".toList
  blockEnd := "*/".toList
  lineComment := some "//".toList
  noise := ["/".toList, "*".toList]

def python : Language where
  extension := "py".toList
  blockStart := "'''".toList
  blockEnd := "'''".toList
  lineComment := some "#".toList
  noise := []

def matlab : Language where
  extension := "m".toList
  blockStart := "%\x7b".toList
  blockEnd := "%\x7d".toList
  lineComment := some "%".toList
  noise := ["\x7b".toList, "\x7d".toList]

def builtinLanguages : List Language :=
  [slashStar "c", slashStar "cpp", slashStar "cs", slashStar "go", slashStar "h",
    slashStar "hpp", slashStar "java", slashStar "js", matlab, python, slashStar "rs",
    slashStar "ts"]

def builtin : LanguageTable :=
  ⟨builtinLanguages.map fun language => (language.extension, language)⟩

end LanguageTable
end Docblock
