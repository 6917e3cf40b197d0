import Docblock.Proofs.Text.Replacement
import Docblock.Tagging

namespace Docblock.Tagging

theorem isNameChar_tag : isNameChar '@' = false := by
  decide +kernel

private theorem isNameChar_description : isNameChar ':' = false := by
  decide +kernel

structure IsName (name : Text) : Prop where
  ne_nil : name ≠ []
  all : name.all isNameChar = true

theorem IsName.tag_not_mem {name : Text} (hname : IsName name) : '@' ∉ name := by
  intro hmem
  have htag := List.all_eq_true.mp hname.all '@' hmem
  rw [isNameChar_tag] at htag
  contradiction

theorem name?_append {name : Text} (hname : IsName name) (rest : Text) :
    name? ':' (name ++ ':' :: rest) = some name := by
  obtain ⟨hne, hall⟩ := hname
  induction name with
  | nil => contradiction
  | cons c name ih =>
      rw [List.all_cons, Bool.and_eq_true] at hall
      cases name with
      | nil => simp [name?, hall.1, isNameChar_description]
      | cons d name =>
          rw [List.cons_append, name?, ih (List.cons_ne_nil d name) hall.2]
          simp [hall.1]

/-- No tag character of a text is a mark when the text stands between a character and
more text: each has an escape before it, or neither begins a tag nor stands free. -/
def Quiet (previous : Option Char) (text right : Text) : Prop :=
  ∀ before after, text = before ++ '@' :: after →
    before.getLast?.or previous = some '\\' ∨
      ∀ offset, markAt Markers.standard (before.getLast?.or previous) offset (after ++ right) = none

theorem getLast?_cons_or (c : Char) (text : Text) (previous : Option Char) :
    (c :: text).getLast?.or previous = text.getLast?.or (some c) := by
  cases text with
  | nil => rfl
  | cons d text => simp [List.getLast?_cons]

theorem Quiet.of_cons {previous : Option Char} {c : Char} {text right : Text}
    (hquiet : Quiet previous (c :: text) right) : Quiet (some c) text right := by
  intro before after hsplit
  have hcases := hquiet (c :: before) after (by rw [hsplit, List.cons_append])
  rwa [getLast?_cons_or] at hcases

theorem quiet_of_shielded {text : Text} (hshielded : Text.Shielded '\\' '@' text)
    (previous : Option Char) (right : Text) : Quiet previous text right := by
  intro before after hsplit
  left
  rw [hshielded before after hsplit]
  rfl

theorem Quiet.append_left {left text right : Text} {previous : Option Char}
    (hleft : '@' ∉ left) (hquiet : Quiet (left.getLast?.or previous) text right) :
    Quiet previous (left ++ text) right := by
  intro before after hsplit
  rcases List.append_eq_append_iff.mp hsplit with ⟨middle, rfl, htext⟩ | ⟨middle, hmiddle, hafter⟩
  · have hcases := hquiet middle after htext
    rwa [← Option.or_assoc, ← List.getLast?_append] at hcases
  · cases middle with
    | nil =>
        have hcases := hquiet [] after (by simpa using hafter.symm)
        simpa [hmiddle] using hcases
    | cons c middle =>
        rw [List.cons_append, List.cons.injEq] at hafter
        exact absurd (by simp [hmiddle, ← hafter.1]) hleft

theorem scan_append_of_quiet {previous : Option Char} {text right : Text}
    (hquiet : Quiet previous text right) (offset : Nat) :
    scan Markers.standard previous offset (text ++ right) =
      scan Markers.standard (text.getLast?.or previous) (offset + text.byteLength) right := by
  induction text generalizing previous offset with
  | nil => rfl
  | cons c text ih =>
      rw [getLast?_cons_or, Text.byteLength_cons, ← Nat.add_assoc, ← ih hquiet.of_cons,
        List.cons_append, scan]
      by_cases hmark : c = Markers.standard.tag ∧ previous ≠ some Markers.standard.escape
      · obtain ⟨rfl, hprevious⟩ := hmark
        rcases hquiet [] text rfl with hescaped | hnone
        · exact absurd hescaped hprevious
        · have hnothing : markAt Markers.standard previous offset (text ++ right) = none :=
            hnone offset
          rw [if_pos ⟨rfl, hprevious⟩, hnothing]
          rfl
      · rw [if_neg hmark]

def segment (entry : Text × Text) : Text :=
  '@' :: entry.1 ++ ':' :: entry.2

def compose (entries : List (Text × Text)) : Text :=
  entries.flatMap segment

@[simp] theorem compose_cons (entry : Text × Text) (rest : List (Text × Text)) :
    compose (entry :: rest) = segment entry ++ compose rest := rfl

theorem byteLength_segment (name text : Text) :
    (segment (name, text)).byteLength = 1 + name.byteLength + 1 + text.byteLength := by
  simp [segment, Nat.add_assoc, show '@'.utf8Size = 1 from rfl, show ':'.utf8Size = 1 from rfl]

/-- Entries whose composition has no mark but the tags of the entries. -/
inductive Composable : List (Text × Text) → Prop where
  | nil : Composable []
  | cons {name text : Text} {rest : List (Text × Text)} (hname : IsName name)
      (hcontent : text.allBlank = false)
      (hquiet : Quiet (some ':') text (compose rest))
      (hend : rest ≠ [] → text.getLast? ≠ some '\\')
      (hrest : Composable rest) : Composable ((name, text) :: rest)

def boundariesFrom (offset : Nat) : List (Text × Text) → List Boundary
  | [] => []
  | (name, text) :: rest =>
      ⟨name.lower, offset, offset + 1 + name.byteLength + 1⟩ ::
        boundariesFrom (offset + (segment (name, text)).byteLength) rest

theorem map_name_boundariesFrom (offset : Nat) (entries : List (Text × Text)) :
    (boundariesFrom offset entries).map Boundary.name =
      entries.map fun entry => Text.lower entry.1 := by
  induction entries generalizing offset with
  | nil => rfl
  | cons entry rest ih =>
      obtain ⟨name, text⟩ := entry
      exact congrArg (name.lower :: ·) (ih _)

theorem scan_segment {previous : Option Char} (hprevious : previous ≠ some '\\')
    {name text right : Text} (hname : IsName name) (hquiet : Quiet (some ':') text right)
    (offset : Nat) :
    scan Markers.standard previous offset (segment (name, text) ++ right) =
      .boundary ⟨name.lower, offset, offset + 1 + name.byteLength + 1⟩ ::
        scan Markers.standard (text.getLast?.or (some ':'))
          (offset + (segment (name, text)).byteLength) right := by
  have hmark : markAt Markers.standard previous offset (name ++ ':' :: text ++ right) =
      some (.boundary ⟨name.lower, offset, offset + 1 + name.byteLength + 1⟩) := by
    rw [List.append_assoc, List.cons_append, markAt,
      show Markers.standard.description = ':' from rfl, name?_append hname]
    rfl
  have hcolon : '@' ∉ name ++ [':'] := by simp [hname.tag_not_mem]
  have hquiet : Quiet (some '@') (name ++ ':' :: text) right := by
    have hsplit : name ++ ':' :: text = (name ++ [':']) ++ text := by simp
    rw [hsplit]
    exact .append_left hcolon (by simpa using hquiet)
  have hlast : (name ++ ':' :: text).getLast?.or (some '@') = text.getLast?.or (some ':') := by
    cases text with
    | nil => simp
    | cons c text => simp [List.getLast?_append, List.getLast?_cons]
  rw [segment, List.cons_append, List.cons_append, scan, if_pos ⟨rfl, hprevious⟩, hmark,
    scan_append_of_quiet hquiet, hlast, Text.byteLength_cons, ← Nat.add_assoc]
  rfl

theorem scan_compose {entries : List (Text × Text)} (hentries : Composable entries)
    {previous : Option Char} (hprevious : entries ≠ [] → previous ≠ some '\\') (offset : Nat) :
    scan Markers.standard previous offset (compose entries) =
      (boundariesFrom offset entries).map Mark.boundary := by
  induction hentries generalizing previous offset with
  | nil => rfl
  | @cons name text rest hname hcontent hquiet hend hrest ih =>
      have htext : text.getLast?.or (some ':') = text.getLast? := by
        cases text with
        | nil => simp [Text.allBlank] at hcontent
        | cons c text => simp [List.getLast?_cons]
      rw [compose_cons, scan_segment (hprevious (List.cons_ne_nil _ _)) hname hquiet, htext,
        ih hend]
      rfl

def textRanges (offset : Nat) : List (Text × Text) → List ByteRange
  | [] => []
  | (name, text) :: rest =>
      ⟨offset + 1 + name.byteLength + 1, offset + (segment (name, text)).byteLength⟩ ::
        textRanges (offset + (segment (name, text)).byteLength) rest

theorem contentRanges_cons (length : Nat) (boundary : Boundary) (rest : List Boundary) :
    contentRanges length (boundary :: rest) =
      ⟨boundary.contentOffset, (rest.head?.map Boundary.offset).getD length⟩ ::
        contentRanges length rest := by
  cases rest <;> rfl

theorem offset_head?_boundariesFrom (offset : Nat) (entries : List (Text × Text)) :
    ((boundariesFrom offset entries).head?.map Boundary.offset).getD
      (offset + (compose entries).byteLength) = offset := by
  cases entries <;> rfl

theorem contentRanges_boundariesFrom (offset : Nat) (entries : List (Text × Text)) :
    contentRanges (offset + (compose entries).byteLength) (boundariesFrom offset entries) =
      textRanges offset entries := by
  induction entries generalizing offset with
  | nil => rfl
  | cons entry rest ih =>
      obtain ⟨name, text⟩ := entry
      rw [compose_cons, Text.byteLength_append, ← Nat.add_assoc, boundariesFrom,
        contentRanges_cons, offset_head?_boundariesFrom, ih, textRanges]

private theorem start_le_stop_of_mem_textRanges {offset : Nat} {entries : List (Text × Text)}
    {range : ByteRange} (hmem : range ∈ textRanges offset entries) :
    range.start ≤ range.stop := by
  induction entries generalizing offset with
  | nil => simp [textRanges] at hmem
  | cons entry rest ih =>
      obtain ⟨name, text⟩ := entry
      rw [textRanges, List.mem_cons] at hmem
      rcases hmem with rfl | hmem
      · rw [byteLength_segment]
        dsimp only
        omega
      · exact ih hmem

private theorem map_slice_textRanges (before : Text) (entries : List (Text × Text)) :
    (textRanges before.byteLength entries).map (Text.slice (before ++ compose entries)) =
      entries.map Prod.snd := by
  induction entries generalizing before with
  | nil => rfl
  | cons entry rest ih =>
      obtain ⟨name, text⟩ := entry
      have hslice : Text.slice (before ++ compose ((name, text) :: rest))
          ⟨before.byteLength + 1 + name.byteLength + 1,
            before.byteLength + (segment (name, text)).byteLength⟩ = text := by
        have hbody : before ++ compose ((name, text) :: rest) =
            (before ++ '@' :: name ++ [':']) ++ text ++ compose rest := by
          simp [segment]
        have hstart : (before ++ '@' :: name ++ [':']).byteLength =
            before.byteLength + 1 + name.byteLength + 1 := by
          simp [Nat.add_assoc, show '@'.utf8Size = 1 from rfl, show ':'.utf8Size = 1 from rfl]
        rw [hbody, byteLength_segment, ← Nat.add_assoc, ← Nat.add_assoc, ← Nat.add_assoc, ← hstart]
        exact Text.slice_append _ text (compose rest)
      have hrest := ih (before ++ segment (name, text))
      rw [Text.byteLength_append, List.append_assoc, ← compose_cons] at hrest
      rw [textRanges, List.map_cons, hslice, hrest, List.map_cons]

theorem clean_eq_nil_iff {text : Text} :
    clean Markers.standard text = [] ↔ text.allBlank = true := by
  rw [← Text.trim_eq_nil_iff]
  constructor
  · intro hnil
    exact Decidable.byContradiction fun htrim =>
      Text.replace_ne_nil (List.cons_ne_nil _ _) htrim hnil
  · intro htrim
    rw [clean, htrim]
    rfl

private theorem Composable.clean_ne_nil {entries : List (Text × Text)}
    (hentries : Composable entries)
    {entry : Text × Text} (hmem : entry ∈ entries) :
    clean Markers.standard entry.2 ≠ [] := by
  induction hentries with
  | nil => contradiction
  | cons hname hcontent hquiet hend hrest ih =>
      rcases List.mem_cons.mp hmem with rfl | hmem
      · exact fun hnil => Bool.false_ne_true (hcontent.symm.trans (clean_eq_nil_iff.mp hnil))
      · exact ih hmem

theorem tagBody_of_boundaries {lead : Text} {entries : List (Text × Text)}
    (hboundaries : boundaries (marks Markers.standard (lead ++ compose entries)) =
      boundariesFrom lead.byteLength entries) :
    tagBody Markers.standard (lead ++ compose entries) =
      if clean Markers.standard lead = [] ∧
          .loose ∉ marks Markers.standard (lead ++ compose entries) ∧
          ∀ entry ∈ entries, clean Markers.standard entry.2 ≠ [] then
        .ok (FieldMap.ofList (entries.map fun entry =>
          Field.classify (Text.lower entry.1) (clean Markers.standard entry.2)))
      else
        .error (.misaligned
          ((marks Markers.standard (lead ++ compose entries)).map (Mark.label Markers.standard))
          (((lead :: entries.map Prod.snd).map (clean Markers.standard)).filter (· ≠ []))) := by
  have hranges : contentRanges (lead ++ compose entries).byteLength
      (boundariesFrom lead.byteLength entries) = textRanges lead.byteLength entries := by
    rw [Text.byteLength_append, contentRanges_boundariesFrom]
  have hordered : ((textRanges lead.byteLength entries).any fun range =>
      range.stop < range.start) = false := by
    rw [List.any_eq_false]
    intro range hrange
    simpa using start_le_stop_of_mem_textRanges hrange
  have hfields : fieldsOf Markers.standard (lead ++ compose entries)
      (boundariesFrom lead.byteLength entries) =
        entries.map fun entry => (Text.lower entry.1, clean Markers.standard entry.2) := by
    have htexts := congrArg (List.map (clean Markers.standard)) (map_slice_textRanges lead entries)
    simp only [List.map_map, Function.comp_def] at htexts
    rw [fieldsOf, hranges, map_name_boundariesFrom, htexts]
    exact List.zip_map' ..
  have hleading : leading Markers.standard (lead ++ compose entries)
      (boundariesFrom lead.byteLength entries) = clean Markers.standard lead := by
    have hslice := Text.slice_append [] lead (compose entries)
    rw [Text.byteLength_nil, Nat.zero_add, List.nil_append] at hslice
    rw [leading, Text.byteLength_append, offset_head?_boundariesFrom, hslice]
  simp only [tagBody, hboundaries, hranges, hfields, hleading, hordered, List.forall_mem_map,
    List.map_map, List.map_cons]
  rw [if_neg Bool.false_ne_true]
  rfl

theorem tagBody_compose {leading : Text} (hleading : leading.allBlank = true)
    {entries : List (Text × Text)} (hentries : Composable entries) :
    tagBody Markers.standard (leading ++ compose entries) =
      .ok (FieldMap.ofList (entries.map fun entry =>
        Field.classify (Text.lower entry.1) (clean Markers.standard entry.2))) := by
  have hmem : '@' ∉ leading := by
    intro hmem
    have hblank := List.all_eq_true.mp hleading '@' hmem
    contradiction
  have hprevious : leading.getLast?.or none ≠ some '\\' := by
    intro hlast
    rw [Option.or_none] at hlast
    have hblank := List.all_eq_true.mp hleading '\\' (List.mem_of_getLast? hlast)
    contradiction
  have hmarks : marks Markers.standard (leading ++ compose entries) =
      (boundariesFrom leading.byteLength entries).map Mark.boundary := by
    have hquiet : Quiet none leading (compose entries) :=
      quiet_of_shielded (Text.shielded_of_not_mem hmem) none _
    rw [marks, scan_append_of_quiet hquiet, Nat.zero_add,
      scan_compose hentries fun _ => hprevious]
  have hboundaries : boundaries (marks Markers.standard (leading ++ compose entries)) =
      boundariesFrom leading.byteLength entries := by
    rw [hmarks, boundaries, List.filterMap_map]
    exact List.filterMap_some
  rw [tagBody_of_boundaries hboundaries, if_pos]
  refine ⟨?_, ?_, fun entry hentry => hentries.clean_ne_nil hentry⟩
  · exact clean_eq_nil_iff.mpr hleading
  · rw [hmarks]
    simp

end Docblock.Tagging
