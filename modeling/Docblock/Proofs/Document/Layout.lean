import Docblock.Proofs.Document.Heading
import Docblock.Proofs.Field.Readers
import Mathlib.Data.List.Perm.Basic
import Mathlib.Data.List.Sort

namespace Docblock.Markdown

/-! A block is shown field by field: first the reserved fields, then the custom ones in a
table, then the code.  Where a field was inserted changes nothing but the order of the rows. -/

def shownTags : List ReservedTag :=
  [.name, .brief, .notes, .inputs, .outputs]

def reservedFields (block : FieldMap) : List Field :=
  shownTags.filterMap fun tag => (block.reserved? tag).map (Field.reserved tag)

def customFields (block : FieldMap) : List Field :=
  block.custom.map fun (name, content) => .custom name content

def codeFields (block : FieldMap) : List Field :=
  block.snippets.map fun (index, code) => .snippet index code

def shownFields (block : FieldMap) : List Field :=
  reservedFields block ++ customFields block ++ codeFields block

/-- The lines that show one field.  A name is a heading and a brief a quote, both with one space
between two words; other reserved fields are paragraphs, some below a heading of their own. -/
def fieldLines (extension : Text) : Field → List Text
  | .reserved .name content =>
      ["## ".toList ++ List.intercalate [' '] (Token.words content) ++ ['\n']]
  | .reserved .brief content =>
      ["> ".toList ++ List.intercalate [' '] (Token.words content) ++ ['\n']]
  | .reserved .notes content => [content ++ ['\n']]
  | .reserved .inputs content => ["### Inputs\n".toList, content ++ ['\n']]
  | .reserved .outputs content => ["### Outputs\n".toList, content ++ ['\n']]
  | .custom name content =>
      ["|**".toList ++ titleCase name ++ "**|".toList ++ tableCell content ++ ['|']]
  | .snippet _ code => [fence code ++ extension, code, fence code, []]

def table (rows : List Text) : List Text :=
  if rows = [] then []
  else ["|Field Name|Description|".toList, "|:---:|:---:|".toList] ++ rows ++ [[]]

private theorem mem_shownTags (tag : ReservedTag) : tag ∈ shownTags := by
  cases tag <;> decide

theorem nodup_shownTags : shownTags.Nodup := by
  decide

theorem mem_reservedFields {block : FieldMap} {field : Field} :
    field ∈ reservedFields block ↔
      ∃ tag content, block.reserved? tag = some content ∧ field = .reserved tag content := by
  simp only [reservedFields, List.mem_filterMap, mem_shownTags, true_and,
    Option.map_eq_some_iff, @eq_comm _ field]

theorem mem_customFields {block : FieldMap} {field : Field} :
    field ∈ customFields block ↔
      ∃ name content, .custom name content ∈ block.fields ∧ field = .custom name content := by
  simp only [customFields, List.mem_map, Prod.exists, FieldMap.mem_custom, @eq_comm _ field]

theorem mem_codeFields {block : FieldMap} {field : Field} :
    field ∈ codeFields block ↔
      ∃ index code, .snippet index code ∈ block.fields ∧ field = .snippet index code := by
  simp only [codeFields, List.mem_map, Prod.exists, FieldMap.mem_snippets, @eq_comm _ field]

section Distinct

variable {block : FieldMap} (hdistinct : block.Distinct)
include hdistinct

private theorem mem_shownFields {field : Field} :
    field ∈ shownFields block ↔ field ∈ block.fields := by
  rw [shownFields, List.mem_append, List.mem_append, mem_reservedFields, mem_customFields,
    mem_codeFields]
  simp only [hdistinct.reserved?_eq_some_iff]
  constructor
  · rintro ((⟨tag, content, hmem, rfl⟩ | ⟨name, content, hmem, rfl⟩) | ⟨index, code, hmem, rfl⟩)
    · exact hmem
    · exact hmem
    · exact hmem
  · intro hmem
    cases field with
    | reserved tag content => exact .inl (.inl ⟨tag, content, hmem, rfl⟩)
    | custom name content => exact .inl (.inr ⟨name, content, hmem, rfl⟩)
    | snippet index code => exact .inr ⟨index, code, hmem, rfl⟩

theorem nodup_shownFields : (shownFields block).Nodup := by
  have hreserved : (reservedFields block).Nodup := by
    apply nodup_shownTags.filterMap
    intro left right field hleft hright
    obtain ⟨content, -, rfl⟩ := Option.map_eq_some_iff.mp hleft
    obtain ⟨other, -, hfield⟩ := Option.map_eq_some_iff.mp hright
    exact (Field.reserved.inj hfield).1.symm
  have hcustom : (customFields block).Nodup := by
    apply hdistinct.nodup_custom.map
    rintro ⟨name, content⟩ ⟨other, text⟩ hfield
    exact Prod.ext (Field.custom.inj hfield).1 (Field.custom.inj hfield).2
  have hcode : (codeFields block).Nodup := by
    apply hdistinct.nodup_snippets.map
    rintro ⟨index, code⟩ ⟨other, text⟩ hfield
    exact Prod.ext (Field.snippet.inj hfield).1 (Field.snippet.inj hfield).2
  rw [shownFields, List.nodup_append', List.nodup_append']
  refine ⟨⟨hreserved, hcustom, ?_⟩, hcode, ?_⟩
  · intro field hmem hother
    obtain ⟨tag, content, -, rfl⟩ := mem_reservedFields.mp hmem
    obtain ⟨name, text, -, hfield⟩ := mem_customFields.mp hother
    cases hfield
  · intro field hmem hother
    obtain ⟨index, code, -, rfl⟩ := mem_codeFields.mp hother
    rcases List.mem_append.mp hmem with hmem | hmem
    · obtain ⟨tag, content, -, hfield⟩ := mem_reservedFields.mp hmem
      cases hfield
    · obtain ⟨name, content, -, hfield⟩ := mem_customFields.mp hmem
      cases hfield

theorem fields_perm_shownFields : block.fields.Perm (shownFields block) :=
  (List.perm_ext_iff_of_nodup hdistinct.nodup (nodup_shownFields hdistinct)).mpr
    fun _ => (mem_shownFields hdistinct).symm

end Distinct

private theorem customLines_eq (fields : List (Text × Text)) :
    customLines fields = table (fields.map fun (name, content) => tableRow name content) := by
  cases fields with
  | nil => rfl
  | cons field rest => rfl

private theorem fieldLines_reserved (extension : Text) (tag : ReservedTag) (content : Text) :
    fieldLines extension (.reserved tag content) = reservedLines tag content := by
  cases tag with
  | name => rw [reservedLines, heading, collapse_eq_intercalate, fieldLines]
  | brief => rw [reservedLines, heading, collapse_eq_intercalate, fieldLines]
  | notes => rfl
  | inputs => rfl
  | outputs => rfl

private theorem flatMap_reservedFields (extension : Text) (block : FieldMap) :
    (reservedFields block).flatMap (fieldLines extension) =
      reservedOrder.flatMap fun tag =>
        (block.reserved? tag).toList.flatMap (reservedLines tag) := by
  rw [reservedFields, List.filterMap_eq_flatMap_toList, List.flatMap_assoc, reservedOrder,
    shownTags]
  congr 1
  funext tag
  cases block.reserved? tag with
  | none => rfl
  | some content => simpa using fieldLines_reserved extension tag content

theorem blockLines_eq (extension : Text) (block : FieldMap) :
    blockLines extension block =
      (reservedFields block).flatMap (fieldLines extension) ++
        table ((customFields block).flatMap (fieldLines extension)) ++
        (codeFields block).flatMap (fieldLines extension) := by
  have hcustom : (customFields block).flatMap (fieldLines extension) =
      block.custom.map fun (name, content) => tableRow name content := by
    rw [customFields, List.flatMap_map, List.map_eq_flatMap]
    rfl
  have hcode : (codeFields block).flatMap (fieldLines extension) =
      block.snippets.flatMap fun (_, code) => snippetLines extension code := by
    rw [codeFields, List.flatMap_map]
    rfl
  rw [blockLines, flatMap_reservedFields, hcustom, hcode, customLines_eq]

/-- Blocks with the same content under every reserved tag, the same custom fields in the same
order, and the same code under the same numbers. -/
structure SameContent (left right : FieldMap) : Prop where
  reserved?_eq : ∀ tag, left.reserved? tag = right.reserved? tag
  custom_eq : left.custom = right.custom
  mem_snippets_iff : ∀ snippet, snippet ∈ left.snippets ↔ snippet ∈ right.snippets

private theorem SameContent.snippets_eq {left right : FieldMap} (hsame : SameContent left right)
    (hleft : left.Distinct) (hright : right.Distinct) : left.snippets = right.snippets := by
  have hperm : left.snippets.Perm right.snippets :=
    (List.perm_ext_iff_of_nodup hleft.nodup_snippets hright.nodup_snippets).mpr
      hsame.mem_snippets_iff
  refine hperm.eq_of_pairwise ?_ hleft.pairwise_snippets hright.pairwise_snippets
  intro first second _ _ hlt hgt
  exact absurd hgt (Nat.lt_asymm hlt)

theorem SameContent.blockLines_eq {left right : FieldMap} (hsame : SameContent left right)
    (hleft : left.Distinct) (hright : right.Distinct) (extension : Text) :
    blockLines extension left = blockLines extension right := by
  rw [blockLines, blockLines, hsame.custom_eq, hsame.snippets_eq hleft hright]
  simp only [hsame.reserved?_eq]

/-- A block shows each of its fields once, and in an order that depends on nothing but its
content. -/
theorem blockLines_show_fields (entries : List Field) :
    let block := FieldMap.ofList entries
    block.fields.Perm (shownFields block) ∧ (shownFields block).Nodup ∧
    (∀ extension, blockLines extension block =
      (reservedFields block).flatMap (fieldLines extension) ++
        table ((customFields block).flatMap (fieldLines extension)) ++
        (codeFields block).flatMap (fieldLines extension)) ∧
    ∀ others, SameContent block (FieldMap.ofList others) →
      ∀ extension, blockLines extension block = blockLines extension (FieldMap.ofList others) := by
  intro block
  have hdistinct := FieldMap.distinct_ofList entries
  refine ⟨fields_perm_shownFields hdistinct, nodup_shownFields hdistinct,
    fun extension => blockLines_eq extension block, ?_⟩
  intro others hsame
  exact hsame.blockLines_eq hdistinct (FieldMap.distinct_ofList others)

def orderly : List Field :=
  [.reserved .name "split\n line".toList, .reserved .brief "in  two".toList,
    .reserved .notes "n".toList, .reserved .inputs "x".toList, .reserved .outputs "y".toList,
    .custom "see_also".toList "me".toList, .snippet 1 "a".toList, .snippet 2 "b".toList]

/-- The same fields the other way round, some of them inserted twice. -/
def disorderly : List Field :=
  [.snippet 2 "b".toList, .custom "see_also".toList "you".toList,
    .reserved .outputs "y".toList, .reserved .notes "old".toList, .snippet 1 "a".toList,
    .reserved .inputs "x".toList, .reserved .brief "in  two".toList,
    .reserved .name "split\n line".toList, .custom "see_also".toList "me".toList,
    .reserved .notes "n".toList]

theorem blockLines_disorderly :
    SameContent (.ofList orderly) (.ofList disorderly) ∧
      FieldMap.ofList orderly ≠ FieldMap.ofList disorderly ∧
      blockLines "c".toList (.ofList disorderly) =
        ["## split line\n".toList, "> in two\n".toList, "n\n".toList, "### Inputs\n".toList,
          "x\n".toList, "### Outputs\n".toList, "y\n".toList,
          "|Field Name|Description|".toList, "|:---:|:---:|".toList, "|**See Also**|me|".toList,
          [], "```c".toList, "a".toList, "```".toList, [], "```c".toList, "b".toList,
          "```".toList, []] := by
  have hsame : SameContent (.ofList orderly) (.ofList disorderly) := by
    have hperm : (FieldMap.ofList orderly).fields.Perm (FieldMap.ofList disorderly).fields := by
      decide
    constructor
    · intro tag
      cases tag <;> decide
    · decide
    · rintro ⟨index, code⟩
      rw [FieldMap.mem_snippets, FieldMap.mem_snippets]
      exact hperm.mem_iff
  have hsnippets : (FieldMap.ofList orderly).snippets = [(1, "a".toList), (2, "b".toList)] := by
    rw [FieldMap.snippets, List.mergeSort_of_pairwise (by decide)]
    rfl
  obtain ⟨-, -, hshown, hlines⟩ := blockLines_show_fields orderly
  refine ⟨hsame, by decide, ?_⟩
  rw [← hlines disorderly hsame "c".toList, hshown "c".toList, codeFields, hsnippets]
  decide +kernel

end Docblock.Markdown
