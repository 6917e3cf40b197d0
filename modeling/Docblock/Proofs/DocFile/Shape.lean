import Docblock.DocFile
import Docblock.Language.Table
import Docblock.Proofs.Extraction.Ownership
import Docblock.Proofs.Tagging.Boundaries
import Mathlib

namespace Docblock

/-! What every documented file looks like, whatever its text and language. -/

namespace RawBlock

open Extraction Ownership

variable {language : Language} {markers : Markers} {text : Text}

theorem isTagged_of_mem_all {block : RawBlock} (hblock : block ∈ all language markers text) :
    isTagged markers block.body = true := by
  have hbody : block.body ∈ (all language markers text).map body := List.mem_map_of_mem hblock
  rw [map_body_all] at hbody
  obtain ⟨doc, hdoc, hsame⟩ := List.mem_map.mp hbody
  have htagged := (List.mem_filter.mp hdoc).2
  rw [isTaggedDoc, Bool.and_eq_true] at htagged
  rw [← hsame]
  exact htagged.2

def indices (block : RawBlock) : List Nat :=
  block.snippets.map NumberedCode.index

theorem flatMap_indices_all (language : Language) (markers : Markers) (text : Text) :
    ∃ count, (all language markers text).flatMap indices = List.range count :=
  ⟨_, (flatMap_index_number 0 _).trans List.range_eq_range'.symm⟩

theorem pairwise_indices_of_mem_all {block : RawBlock}
    (hblock : block ∈ all language markers text) : block.indices.Pairwise (· < ·) := by
  obtain ⟨count, hindices⟩ := flatMap_indices_all language markers text
  have hordered : ((all language markers text).flatMap indices).Pairwise (· < ·) := by
    rw [hindices]
    exact List.pairwise_lt_range
  exact (List.pairwise_flatMap.mp hordered).1 block hblock

def codeFields (block : RawBlock) : List Field :=
  block.snippets.map fun snippet => .snippet snippet.index snippet.text

theorem filterMap_index?_codeFields (block : RawBlock) :
    block.codeFields.filterMap Field.index? = block.indices := by
  rw [codeFields, List.filterMap_map, indices, ← List.filterMap_eq_map]
  rfl

theorem isWritten_of_mem_codeFields {block : RawBlock} {field : Field}
    (hfield : field ∈ block.codeFields) : field.isWritten = false := by
  obtain ⟨snippet, -, rfl⟩ := List.mem_map.mp hfield
  rfl

theorem map_slot_codeFields (block : RawBlock) :
    block.codeFields.map Field.slot = block.indices.map Slot.snippet := by
  rw [codeFields, indices, List.map_map, List.map_map]
  rfl

end RawBlock

namespace Field

def reservedNames : List Text :=
  ["name".toList, "brief".toList, "note".toList, "notes".toList, "inputs".toList,
    "outputs".toList]

private theorem not_mem_reservedNames {name : Text} (hnone : ReservedTag.ofName? name = none) :
    name ∉ reservedNames := by
  intro hmem
  simp only [reservedNames, List.mem_cons, List.not_mem_nil, or_false] at hmem
  rcases hmem with rfl | rfl | rfl | rfl | rfl | rfl <;> contradiction

/-- A field as a tag gives it. -/
structure WellWritten (field : Field) : Prop where
  isWritten : field.isWritten = true
  content_ne_nil : field.content ≠ []
  trim_content : field.content.trim = field.content
  custom_name : ∀ name content, field = .custom name content →
    name ≠ [] ∧ name ∉ reservedNames

private theorem wellWritten_classify {name content : Text} (hname : name ≠ [])
    (hcontent : content ≠ [])
    (htrim : content.trim = content) : (classify name content).WellWritten where
  isWritten := isWritten_classify name content
  content_ne_nil := by rwa [content_classify]
  trim_content := by rwa [content_classify]
  custom_name := by
    intro other text hcustom
    unfold classify at hcustom
    split at hcustom
    · contradiction
    · rename_i hnone
      obtain ⟨rfl, -⟩ := Field.custom.inj hcustom
      exact ⟨hname, not_mem_reservedNames hnone⟩

end Field

namespace Tagging

theorem wellWritten_of_mem_tagBody {body : Text} {map : FieldMap}
    (hok : tagBody Markers.standard body = .ok map) {field : Field} (hfield : field ∈ map.fields) :
    field.WellWritten := by
  obtain ⟨haligned, rfl⟩ := aligned_of_tagBody hok
  obtain ⟨entry, hentry, rfl⟩ := List.mem_map.mp (FieldMap.mem_of_mem_ofList hfield)
  obtain ⟨⟨name, hname, hlower⟩, segment, hsegment⟩ := exists_segment_of_mem_entries hentry
  apply Field.wellWritten_classify
  · rw [hlower]
    exact Text.lower_ne_nil hname.ne_nil
  · exact haligned.content_ne_nil entry hentry
  · rw [hsegment]
    exact trim_clean segment

private theorem nodup_slots_of_tagBody {body : Text} {map : FieldMap}
    (hok : tagBody Markers.standard body = .ok map) : (map.fields.map Field.slot).Nodup := by
  obtain ⟨-, rfl⟩ := aligned_of_tagBody hok
  exact FieldMap.nodup_slots_ofList _

theorem fields_ne_nil_of_tagBody {body : Text} {map : FieldMap}
    (htagged : Extraction.isTagged Markers.standard body = true)
    (hok : tagBody Markers.standard body = .ok map) : map.fields ≠ [] := by
  obtain ⟨haligned, rfl⟩ := aligned_of_tagBody hok
  apply FieldMap.fields_ofList_ne_nil
  exact fun hnil => entries_ne_nil htagged haligned (List.map_eq_nil_iff.mp hnil)

theorem nodup_slots_append_codeFields {block : RawBlock} {map : FieldMap}
    (hok : tagBody Markers.standard block.body = .ok map)
    (hindices : block.indices.Pairwise (· < ·)) :
    ((map.fields ++ block.codeFields).map Field.slot).Nodup := by
  rw [List.map_append, RawBlock.map_slot_codeFields, List.nodup_append]
  refine ⟨nodup_slots_of_tagBody hok, ?_, ?_⟩
  · rw [List.Nodup, List.pairwise_map]
    exact hindices.imp fun hlt heq => Nat.ne_of_lt hlt (Slot.snippet.inj heq)
  · intro slot hslot other hother heq
    obtain ⟨field, hfield, rfl⟩ := List.mem_map.mp hslot
    obtain ⟨index, -, rfl⟩ := List.mem_map.mp hother
    exact Field.slot_ne_snippet (wellWritten_of_mem_tagBody hok hfield).isWritten index heq

theorem tag_of_tagBody {block : RawBlock} {map : FieldMap}
    (hok : tagBody Markers.standard block.body = .ok map)
    (hindices : block.indices.Pairwise (· < ·)) :
    tag Markers.standard block = .ok ⟨map.fields ++ block.codeFields⟩ := by
  have hfields := FieldMap.fields_foldl_insert_of_nodup (nodup_slots_append_codeFields hok hindices)
  rw [RawBlock.codeFields, List.foldl_map] at hfields
  rw [tag, hok]
  exact congrArg (Except.ok ∘ FieldMap.mk) hfields

theorem exists_tagBody_of_tag {block : RawBlock} {map : FieldMap}
    (hindices : block.indices.Pairwise (· < ·)) (hok : tag Markers.standard block = .ok map) :
    ∃ written, tagBody Markers.standard block.body = .ok written ∧
      map = ⟨written.fields ++ block.codeFields⟩ := by
  cases hbody : tagBody Markers.standard block.body with
  | error fault =>
      rw [tag, hbody] at hok
      contradiction
  | ok written =>
      rw [tag_of_tagBody hbody hindices] at hok
      exact ⟨written, rfl, (Except.ok.inj hok).symm⟩

theorem eq_ok_of_toOption {α ε : Type} {result : Except ε α} {value : α}
    (hsome : result.toOption = some value) : result = .ok value := by
  cases result with
  | error fault => contradiction
  | ok found => exact congrArg Except.ok (Option.some.inj hsome)

theorem map_eq_of_mapM {α β ε : Type} {items : List α} {results : List β}
    {read : α → Except ε β} (hok : items.mapM read = .ok results) :
    items.map read = results.map .ok := by
  induction items generalizing results with
  | nil =>
      obtain rfl : [] = results := Except.ok.inj hok
      rfl
  | cons item rest ih =>
      rw [List.mapM_cons] at hok
      cases hitem : read item with
      | error fault => simp [hitem, bind, Except.bind] at hok
      | ok result =>
          cases hrest : rest.mapM read with
          | error fault => simp [hitem, hrest, bind, Except.bind] at hok
          | ok later =>
              obtain rfl : result :: later = results := by
                simpa [hitem, hrest, bind, Except.bind, pure, Except.pure] using hok
              rw [List.map_cons, List.map_cons, hitem, ih hrest]

theorem map_eq_map_of_mapM {α β γ ε : Type} {items : List α} {results : List β}
    {read : α → Except ε β} {view : β → γ} {expected : α → γ}
    (hok : items.mapM read = .ok results)
    (hsame : ∀ item ∈ items, ∀ result, read item = .ok result → view result = expected item) :
    results.map view = items.map expected := by
  have hmap := map_eq_of_mapM hok
  clear hok
  induction items generalizing results with
  | nil =>
      cases results with
      | nil => rfl
      | cons result later => contradiction
  | cons item rest ih =>
      cases results with
      | nil => contradiction
      | cons result later =>
          rw [List.map_cons, List.map_cons, List.cons.injEq] at hmap
          rw [List.forall_mem_cons] at hsame
          rw [List.map_cons, List.map_cons, hsame.1 result hmap.1, ih hsame.2 hmap.2]

theorem exists_error_of_mapM {α β ε : Type} {items : List α} {read : α → Except ε β} {fault : ε}
    (herror : items.mapM read = .error fault) : ∃ item ∈ items, read item = .error fault := by
  induction items with
  | nil => contradiction
  | cons item rest ih =>
      rw [List.mapM_cons] at herror
      cases hitem : read item with
      | error other =>
          obtain rfl : other = fault := by simpa [hitem, bind, Except.bind] using herror
          exact ⟨item, List.mem_cons_self, hitem⟩
      | ok result =>
          cases hrest : rest.mapM read with
          | error other =>
              obtain rfl : other = fault := by
                simpa [hitem, hrest, bind, Except.bind] using herror
              obtain ⟨later, hlater, hfault⟩ := ih hrest
              exact ⟨later, List.mem_cons_of_mem item hlater, hfault⟩
          | ok results => simp [hitem, hrest, bind, Except.bind, pure, Except.pure] at herror

end Tagging

namespace FieldMap

def indices (map : FieldMap) : List Nat :=
  map.fields.filterMap Field.index?

/-- The written fields in order, and then the code by ascending numbers. -/
structure WellShaped (map : FieldMap) : Prop where
  exists_written : ∃ field ∈ map.fields, field.isWritten = true
  slots_nodup : (map.fields.map Field.slot).Nodup
  content_trimmed : ∀ field ∈ map.fields, field.isWritten = true →
    field.content ≠ [] ∧ field.content.trim = field.content
  custom_name : ∀ name content, .custom name content ∈ map.fields →
    name ≠ [] ∧ name ∉ Field.reservedNames
  code_last : ∃ written code, map.fields = written ++ code ∧
    (∀ field ∈ written, field.isWritten = true) ∧ ∀ field ∈ code, field.isWritten = false
  indices_increasing : map.indices.Pairwise (· < ·)

end FieldMap

namespace Tagging

/-- A block of a text in which both steps of tagging succeeded. -/
structure Tagged (block : RawBlock) (map written : FieldMap) : Prop where
  isTagged : Extraction.isTagged Markers.standard block.body = true
  indices_increasing : block.indices.Pairwise (· < ·)
  body : tagBody Markers.standard block.body = .ok written
  fields : map.fields = written.fields ++ block.codeFields

theorem exists_tagged {language : Language} {text : Text} {block : RawBlock} {map : FieldMap}
    (hblock : block ∈ RawBlock.all language Markers.standard text)
    (hok : tag Markers.standard block = .ok map) : ∃ written, Tagged block map written := by
  have hindices := RawBlock.pairwise_indices_of_mem_all hblock
  obtain ⟨written, hbody, rfl⟩ := exists_tagBody_of_tag hindices hok
  exact ⟨written, RawBlock.isTagged_of_mem_all hblock, hindices, hbody, rfl⟩

namespace Tagged

variable {block : RawBlock} {map written : FieldMap}

theorem isWritten (htagged : Tagged block map written) {field : Field}
    (hfield : field ∈ written.fields) : field.isWritten = true :=
  (wellWritten_of_mem_tagBody htagged.body hfield).isWritten

theorem fields_ne_nil (htagged : Tagged block map written) : map.fields ≠ [] := by
  rw [htagged.fields]
  exact List.append_ne_nil_of_left_ne_nil
    (fields_ne_nil_of_tagBody htagged.isTagged htagged.body) _

private theorem wellWritten (htagged : Tagged block map written) {field : Field}
    (hfield : field ∈ map.fields) (hwritten : field.isWritten = true) : field.WellWritten := by
  rw [htagged.fields, List.mem_append] at hfield
  rcases hfield with hfield | hcode
  · exact wellWritten_of_mem_tagBody htagged.body hfield
  · rw [RawBlock.isWritten_of_mem_codeFields hcode] at hwritten
    contradiction

theorem indices_eq (htagged : Tagged block map written) : map.indices = block.indices := by
  have hnone : written.fields.filterMap Field.index? = [] := by
    rw [List.filterMap_eq_nil_iff]
    intro field hfield
    have hwritten := htagged.isWritten hfield
    cases field with
    | snippet index content => contradiction
    | _ => rfl
  rw [FieldMap.indices, htagged.fields, List.filterMap_append, hnone, List.nil_append,
    RawBlock.filterMap_index?_codeFields]

theorem wellShaped (htagged : Tagged block map written) : map.WellShaped where
  exists_written := by
    have hne := fields_ne_nil_of_tagBody htagged.isTagged htagged.body
    obtain ⟨field, hfield⟩ := List.exists_mem_of_ne_nil _ hne
    refine ⟨field, ?_, htagged.isWritten hfield⟩
    rw [htagged.fields]
    exact List.mem_append_left _ hfield
  slots_nodup := by
    rw [htagged.fields]
    exact nodup_slots_append_codeFields htagged.body htagged.indices_increasing
  content_trimmed := by
    intro field hfield hwritten
    have hwell := htagged.wellWritten hfield hwritten
    exact ⟨hwell.content_ne_nil, hwell.trim_content⟩
  custom_name := by
    intro name content hfield
    exact (htagged.wellWritten hfield rfl).custom_name name content rfl
  code_last := ⟨written.fields, block.codeFields, htagged.fields,
    fun _ hfield => htagged.isWritten hfield,
    fun _ hfield => RawBlock.isWritten_of_mem_codeFields hfield⟩
  indices_increasing := by
    rw [htagged.indices_eq]
    exact htagged.indices_increasing

end Tagged
end Tagging

namespace DocFile

open Tagging

variable {language : Language} {name text : Text}

theorem exists_tagged_of_mem {maps : List FieldMap}
    (hmaps : (RawBlock.all language Markers.standard text).mapM (tag Markers.standard) = .ok maps)
    {map : FieldMap} (hmap : map ∈ maps) : ∃ block written, Tagged block map written := by
  have hmem : .ok map ∈
      (RawBlock.all language Markers.standard text).map (tag Markers.standard) := by
    rw [map_eq_of_mapM hmaps]
    exact List.mem_map_of_mem hmap
  obtain ⟨block, hblock, hok⟩ := List.mem_map.mp hmem
  exact ⟨block, exists_tagged hblock hok⟩

private theorem flatMap_indices_eq {maps : List FieldMap}
    (hmaps : (RawBlock.all language Markers.standard text).mapM (tag Markers.standard) = .ok maps) :
    maps.flatMap FieldMap.indices =
      (RawBlock.all language Markers.standard text).flatMap RawBlock.indices := by
  rw [List.flatMap_def, List.flatMap_def]
  refine congrArg List.flatten (map_eq_map_of_mapM hmaps ?_)
  intro block hblock map hok
  obtain ⟨written, htagged⟩ := exists_tagged hblock hok
  exact htagged.indices_eq

/-- No block of a file is left out: each has a field. -/
theorem parse_eq_mapM (language : Language) (name text : Text) :
    parse Markers.standard language name text =
      ((RawBlock.all language Markers.standard (unifyLineEnds text)).mapM
        (tag Markers.standard)).map fun maps => ⟨name, language.extension, maps⟩ := by
  rw [parse]
  cases hmaps : (RawBlock.all language Markers.standard (unifyLineEnds text)).mapM
      (tag Markers.standard) with
  | error fault => rfl
  | ok maps =>
      have hkept : maps.filter (fun map => map.fields ≠ []) = maps := by
        rw [List.filter_eq_self]
        intro map hmap
        obtain ⟨block, written, htagged⟩ := exists_tagged_of_mem hmaps hmap
        simpa using htagged.fields_ne_nil
      simp only [bind, Except.bind, hkept]
      rfl

private theorem exists_misaligned_of_tag {block : RawBlock} {fault : TagFault}
    (herror : tag Markers.standard block = .error fault) :
    ∃ tags contents, fault = .misaligned tags contents := by
  rcases tagBody_cases block.body with ⟨-, hok⟩ | ⟨tags, contents, hfault⟩
  · rw [tag, hok] at herror
    contradiction
  · rw [tag, hfault] at herror
    exact ⟨tags, contents, (Except.error.inj herror).symm⟩

theorem exists_misaligned_of_parse {fault : TagFault}
    (herror : parse Markers.standard language name text = .error fault) :
    ∃ tags contents, fault = .misaligned tags contents := by
  rw [parse_eq_mapM] at herror
  cases hmaps : (RawBlock.all language Markers.standard (unifyLineEnds text)).mapM
      (tag Markers.standard) with
  | ok maps =>
      rw [hmaps] at herror
      contradiction
  | error other =>
      rw [hmaps] at herror
      obtain rfl : other = fault := Except.error.inj herror
      obtain ⟨block, -, htag⟩ := exists_error_of_mapM hmaps
      exact exists_misaligned_of_tag htag

/-- Every block of a documented file has written fields, each with a slot of its own and a
trimmed content, and its code behind them; the code is numbered from zero through all blocks,
and there is one block for every block of the text. -/
theorem parse_wellShaped {file : DocFile}
    (hparse : parse Markers.standard language name text = .ok file) :
    (∀ block ∈ file.blocks, block.WellShaped) ∧
      (∃ count, file.blocks.flatMap FieldMap.indices = List.range count) ∧
      (RawBlock.all language Markers.standard (unifyLineEnds text)).mapM (tag Markers.standard) =
        .ok file.blocks ∧
      file.blocks.length =
        (RawBlock.all language Markers.standard (unifyLineEnds text)).length := by
  rw [parse_eq_mapM] at hparse
  cases hmaps : (RawBlock.all language Markers.standard (unifyLineEnds text)).mapM
      (tag Markers.standard) with
  | error fault =>
      rw [hmaps] at hparse
      contradiction
  | ok maps =>
      rw [hmaps] at hparse
      obtain rfl : ⟨name, language.extension, maps⟩ = file := Except.ok.inj hparse
      refine ⟨?_, ?_, rfl, ?_⟩
      · intro map hmap
        obtain ⟨block, written, htagged⟩ := exists_tagged_of_mem hmaps hmap
        exact htagged.wellShaped
      · rw [flatMap_indices_eq hmaps]
        exact RawBlock.flatMap_indices_all ..
      · have hlength := congrArg List.length (map_eq_of_mapM hmaps)
        rw [List.length_map, List.length_map] at hlength
        exact hlength.symm

/-- Two spellings of one name, an escaped tag character, and code inside a block. -/
def mixedText : Text :=
  "#@ @note: a @x: \\@ #@codestart@# f #@codeend@#\r\n@NOTE: b @#".toList

def mixedBlock : RawBlock :=
  ⟨" @note: a @x: \\@ \n@NOTE: b ".toList, [⟨0, "f".toList⟩]⟩

def mixedFields : FieldMap :=
  ⟨[.reserved .notes "b".toList, .custom "x".toList "@".toList, .snippet 0 "f".toList]⟩

private theorem all_mixedText :
    RawBlock.all LanguageTable.python Markers.standard (unifyLineEnds mixedText) =
      [mixedBlock] := by
  have hmerged : (Regions.find LanguageTable.python Markers.standard
      (Token.all (unifyLineEnds mixedText))).merged =
        [⟨5, some 7, .snippet⟩, ⟨0, some 10, .doc⟩] := by
    decide +kernel
  have hpieces : Extraction.pieces LanguageTable.python Markers.standard (unifyLineEnds mixedText)
      (Token.all (unifyLineEnds mixedText)) [⟨5, some 7, .snippet⟩, ⟨0, some 10, .doc⟩] =
        [.opening mixedBlock.body, .code "f".toList] := by
    cbv
  exact RawBlock.all_of_pieces hmerged hpieces

theorem parse_mixedText :
    parse Markers.standard LanguageTable.python "a.py".toList mixedText =
        .ok ⟨"a.py".toList, "py".toList, [mixedFields]⟩ ∧
      mixedFields.WellShaped ∧
      ∃ count, [mixedFields].flatMap FieldMap.indices = List.range count := by
  have hparse : parse Markers.standard LanguageTable.python "a.py".toList mixedText =
      .ok ⟨"a.py".toList, "py".toList, [mixedFields]⟩ := by
    have htag : tag Markers.standard mixedBlock = .ok mixedFields :=
      eq_ok_of_toOption (by decide +kernel)
    rw [parse_eq_mapM, all_mixedText, List.mapM_cons, htag]
    rfl
  obtain ⟨hshape, hindices, -⟩ := parse_wellShaped hparse
  exact ⟨hparse, hshape mixedFields List.mem_cons_self, hindices⟩

end DocFile
end Docblock
