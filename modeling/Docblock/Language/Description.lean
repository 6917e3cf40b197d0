import Docblock.Json.Reader
import Docblock.Language.Table

namespace Docblock

/-! Languages described in JSON.  A record is an object, with members of other names
ignored, or an array of its fields in order. -/

namespace Language

/-- The one value of a name that may stand at most once. -/
def atMostOne : List Json → Option (Option Json)
  | [] => some none
  | [value] => some (some value)
  | _ => none

/-- The fields of a record, in order: absent, or present with a value.  No record names a
field twice or has more fields than it should. -/
def recordFields (names : List Text) : Json → Option (List (Option Json))
  | .array items =>
      if items.length ≤ names.length then
        some ((items.map some) ++ List.replicate (names.length - items.length) none)
      else none
  | .object members =>
      if members.any fun member => member.1.isNone then none
      else names.mapM fun name => atMostOne (Json.valuesOf name members)
  | _ => none

/-- An optional text, where `null` stands for none. -/
def optionalText : Option Json → Option (Option Text)
  | none => some none
  | some .null => some none
  | some value => value.text?.map some

def textList : Option Json → Option (List Text)
  | none => some []
  | some (.array items) => items.mapM Json.text?
  | some _ => none

def fieldNames : List Text :=
  ["extension".toList, "block_start".toList, "block_end".toList, "line_comment".toList,
    "noise_symbols".toList]

def ofJson (value : Json) : Option Language := do
  match ← recordFields fieldNames value with
  | [some extension, some blockStart, some blockEnd, lineComment, noise] =>
      let extension ← extension.text?
      let blockStart ← blockStart.text?
      let blockEnd ← blockEnd.text?
      let lineComment ← optionalText lineComment
      let noise ← textList noise
      some { extension, blockStart, blockEnd, lineComment, noise }
  | _ => none

def listOfJson (value : Json) : Option (List Language) := do
  match ← recordFields ["languages".toList] value with
  | [some (.array items)] => items.mapM ofJson
  | _ => none

end Language

namespace LanguageTable

inductive LoadFault where
  | notDescription
  | language (extension : Text) (fault : Language.Fault)
  deriving DecidableEq, Repr

/-- Adds the languages of a description, all of them or none, and counts them. -/
def Edit.load (description : Text) : Edit LoadFault Nat := do
  match (Json.read description).bind Language.listOfJson with
  | none => throw .notDescription
  | some languages =>
      (Edit.insertAll languages).adapt fun (extension, fault) => .language extension fault
      pure languages.length

def load (table : LanguageTable) (description : Text) :
    Except LoadFault (LanguageTable × Nat) :=
  table.changed (.load description)

end LanguageTable
end Docblock
