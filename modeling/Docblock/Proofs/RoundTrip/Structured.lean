import Docblock.Document.Format
import Docblock.Proofs.Json.Spelling

namespace Docblock.Structured

/-! The files that a JSON document was made from are read back from it. -/

def member? (name : Text) : Json → Option Json
  | .object members =>
      match Json.valuesOf name members with
      | [value] => some value
      | _ => none
  | _ => none

def items? : Json → Option (List Json)
  | .array items => some items
  | _ => none

def whole? : Json → Option Nat
  | .number spelling =>
      if spelling ≠ [] ∧ spelling.all Char.isDigit then some (Nat.ofDigitChars 10 spelling 0)
      else none
  | _ => none

def textAt? (name : Text) (value : Json) : Option Text :=
  (member? name value).bind Json.text?

def field? (value : Json) : Option Field := do
  let kind ← textAt? "kind".toList value
  let content ← textAt? "content".toList value
  if kind = "reserved".toList then
    let tag ← textAt? "tag".toList value
    (ReservedTag.ofName? tag).map fun tag => .reserved tag content
  else if kind = "custom".toList then
    (textAt? "name".toList value).map fun name => .custom name content
  else if kind = "snippet".toList then
    ((member? "index".toList value).bind whole?).map fun index => .snippet index content
  else none

def block? (value : Json) : Option FieldMap := do
  let fields ← items? value
  (fields.mapM field?).map FieldMap.mk

def file? (value : Json) : Option DocFile := do
  let name ← textAt? "name".toList value
  let extension ← textAt? "extension".toList value
  let blocks ← (member? "blocks".toList value).bind items?
  (blocks.mapM block?).map (DocFile.mk name extension)

def files? (value : Json) : Option (List DocFile) := do
  let files ← items? value
  files.mapM file?

theorem mapM_map_eq_some {α β : Type} {write : α → β} {read? : β → Option α}
    (hread : ∀ item, read? (write item) = some item) (items : List α) :
    (items.map write).mapM read? = some items := by
  induction items with
  | nil => rfl
  | cons item items ih =>
      rw [List.map_cons, List.mapM_cons, hread, ih]
      rfl

private theorem whole?_ofNat (value : Nat) : whole? (.ofNat value) = some value := by
  have hdigits : (Nat.toDigits 10 value).all Char.isDigit = true :=
    List.all_eq_true.mpr (Json.isDigit_of_mem_toDigits value)
  rw [Json.ofNat, whole?, if_pos ⟨Nat.toDigits_ne_nil, hdigits⟩,
    Nat.ofDigitChars_toDigits (by decide) (by decide)]

private theorem ofName?_toText (tag : ReservedTag) : ReservedTag.ofName? tag.toText = some tag := by
  cases tag <;> rfl

private theorem field?_fieldToJson (field : Field) : field? (fieldToJson field) = some field := by
  cases field with
  | reserved tag content =>
      have hfield : field? (fieldToJson (.reserved tag content)) =
          (ReservedTag.ofName? tag.toText).map fun tag => .reserved tag content := rfl
      rw [hfield, ofName?_toText]
      rfl
  | custom name content => rfl
  | snippet index content =>
      have hfield : field? (fieldToJson (.snippet index content)) =
          (whole? (.ofNat index)).map fun index => .snippet index content := rfl
      rw [hfield, whole?_ofNat]
      rfl

private theorem block?_blockToJson (block : FieldMap) :
    block? (blockToJson block) = some block := by
  have hblock : block? (blockToJson block) =
      ((block.fields.map fieldToJson).mapM field?).map FieldMap.mk := rfl
  rw [hblock, mapM_map_eq_some field?_fieldToJson]
  rfl

private theorem file?_fileToJson (file : DocFile) : file? (fileToJson file) = some file := by
  have hfile : file? (fileToJson file) =
      ((file.blocks.map blockToJson).mapM block?).map (DocFile.mk file.name file.extension) := rfl
  rw [hfile, mapM_map_eq_some block?_blockToJson]
  rfl

theorem files?_array (files : List DocFile) :
    files? (.array (files.map fileToJson)) = some files :=
  mapM_map_eq_some file?_fileToJson files

private theorem writes_fieldToJson (field : Field) : (fieldToJson field).Writes := by
  cases field with
  | reserved tag content =>
      exact Json.writes_record (by simp) (by simp [Json.writes_ofText])
  | custom name content =>
      exact Json.writes_record (by simp) (by simp [Json.writes_ofText])
  | snippet index content =>
      exact Json.writes_record (by simp) (by simp [Json.writes_ofText, Json.writes_ofNat])

private theorem writes_blockToJson (block : FieldMap) : (blockToJson block).Writes := by
  refine Json.writes_array fun item hitem => ?_
  obtain ⟨field, -, rfl⟩ := List.mem_map.mp hitem
  exact writes_fieldToJson field

private theorem writes_fileToJson (file : DocFile) : (fileToJson file).Writes := by
  have hblocks : (Json.array (file.blocks.map blockToJson)).Writes := by
    refine Json.writes_array fun item hitem => ?_
    obtain ⟨block, -, rfl⟩ := List.mem_map.mp hitem
    exact writes_blockToJson block
  exact Json.writes_record (by simp) (by simp [Json.writes_ofText, hblocks])

private theorem spellsItems_intercalate (file : DocFile) (files : List DocFile) :
    Json.SpellsItems ((file :: files).map fileToJson)
      ('\n' :: List.intercalate [',', '\n'] ((file :: files).map renderFile) ++ ['\n', ']']) := by
  have hspace : Json.IsSpace ['\n'] := by simp [Json.IsSpace, Json.isSpace]
  induction files generalizing file with
  | nil =>
      have hlast := Json.SpellsItems.last hspace (writes_fileToJson file 0) hspace
      simpa [renderFile] using hlast
  | cons next files ih =>
      have hmore := Json.SpellsItems.more hspace (writes_fileToJson file 0) (ih next)
      simpa [renderFile, List.intercalate_cons_cons] using hmore

def document (files : List DocFile) (footer : Option Text) : Text :=
  Format.json.assemble (files.map Format.json.renderFile) footer

private theorem document_eq_assemble (files : List DocFile) (footer : Option Text) :
    document files footer = assemble (files.map renderFile) :=
  rfl

private theorem read_document (files : List DocFile) (footer : Option Text) :
    Json.read (document files footer) = some (.array (files.map fileToJson)) := by
  have hend : Json.IsSpace ['\n'] := by simp [Json.IsSpace, Json.isSpace]
  cases files with
  | nil => rfl
  | cons file files =>
      have hread := Json.read_of_spells (.items (spellsItems_intercalate file files)) hend
      rw [document_eq_assemble]
      simpa [assemble] using hread

/-- The document of any files reads as one array, with the object of each file in its place,
from which the names of the members give the files back: different files have different
documents. -/
theorem files_of_document (files : List DocFile) (footer : Option Text) :
    Json.read (document files footer) = some (.array (files.map fileToJson)) ∧
    (Json.read (document files footer)).bind files? = some files ∧
    ∀ others otherFooter, document files footer = document others otherFooter ↔ files = others := by
  have hfiles : ∀ files footer, (Json.read (document files footer)).bind files? = some files := by
    intro files footer
    rw [read_document]
    exact files?_array files
  refine ⟨read_document files footer, hfiles files footer, fun others otherFooter => ?_⟩
  constructor
  · intro heq
    have hothers := hfiles others otherFooter
    rw [← heq, hfiles files footer] at hothers
    exact Option.some.inj hothers
  · rintro rfl
    rfl

end Docblock.Structured
