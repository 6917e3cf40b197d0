import Docblock.Proofs.Field.Insertion
import Docblock.Proofs.Tagging.Segments
import Docblock.Proofs.Text.Lines

namespace Docblock

namespace Text

theorem head?_replace {pattern replacement : Text} (hpattern : pattern ≠ [])
    (hreplacement : replacement ≠ []) {text : Text} {c : Char}
    (hhead : (replace text pattern replacement).head? = some c) :
    replacement.head? = some c ∨ text.head? = some c := by
  induction text using replace_induction hpattern with
  | nil => exact .inr hhead
  | matched rest _ =>
      obtain ⟨first, replacement, rfl⟩ := List.exists_cons_of_ne_nil hreplacement
      rw [replace_append_of_ne_nil hpattern] at hhead
      exact .inl hhead
  | unmatched first rest hunmatched _ =>
      rw [replace_cons_of_unmatched hunmatched] at hhead
      exact .inr hhead

theorem getLast?_replace {pattern replacement : Text} (hpattern : pattern ≠ [])
    (hreplacement : replacement ≠ []) {text : Text} {c : Char}
    (hlast : (replace text pattern replacement).getLast? = some c) :
    replacement.getLast? = some c ∨ text.getLast? = some c := by
  induction text using replace_induction hpattern with
  | nil => exact .inr hlast
  | matched rest ih =>
      rw [replace_append_of_ne_nil hpattern, List.getLast?_append, Option.or_eq_some_iff] at hlast
      rcases hlast with hrest | ⟨-, hreplaced⟩
      · exact (ih hrest).imp_right (getLast?_of_suffix (List.suffix_append pattern rest))
      · exact .inl hreplaced
  | unmatched first rest hunmatched ih =>
      rw [replace_cons_of_unmatched hunmatched, ← List.singleton_append, List.getLast?_append,
        Option.or_eq_some_iff] at hlast
      rcases hlast with hrest | ⟨hnone, hfirst⟩
      · exact (ih hrest).imp_right (getLast?_of_suffix (List.suffix_cons first rest))
      · right
        cases rest with
        | nil => exact hfirst
        | cons next rest =>
            rw [List.getLast?_eq_none_iff] at hnone
            exact absurd hnone (replace_ne_nil hreplacement (List.cons_ne_nil next rest))

theorem lower_ne_nil {text : Text} (hne : text ≠ []) : text.lower ≠ [] := by
  obtain ⟨c, rest, rfl⟩ := List.exists_cons_of_ne_nil hne
  rw [lower, lowerFrom, lowerIn]
  repeat' split
  all_goals exact List.cons_ne_nil _ _

end Text

namespace Tagging

theorem isName_of_name? {text name : Text} {description : Char}
    (hname : name? description text = some name) :
    IsName name ∧ ∃ after, text = name ++ description :: after := by
  induction text generalizing name with
  | nil => contradiction
  | cons c rest ih =>
      rw [name?] at hname
      split at hname
      · rename_i hc
        cases hrest : name? description rest with
        | some found =>
            obtain rfl : c :: found = name := by simpa [hrest] using hname
            obtain ⟨hfound, after, rfl⟩ := ih hrest
            refine ⟨⟨List.cons_ne_nil c found, ?_⟩, after, rfl⟩
            rw [List.all_cons, hc, hfound.all]
            rfl
        | none =>
            rw [hrest] at hname
            dsimp only at hname
            split at hname
            · rename_i hhead
              obtain ⟨after, rfl⟩ := List.head?_eq_some_iff.mp hhead
              obtain rfl : [c] = name := Option.some.inj hname
              exact ⟨⟨List.cons_ne_nil c [], by simp [hc]⟩, after, rfl⟩
            · contradiction
      · contradiction

def BeginsBoundary (markers : Markers) (previous : Option Char) (c : Char) (rest : Text) : Prop :=
  c = markers.tag ∧ previous ≠ some markers.escape ∧
    ∃ name, name? markers.description rest = some name

theorem boundaries_scan_tag {markers : Markers} {previous : Option Char} {rest name : Text}
    (hprevious : previous ≠ some markers.escape)
    (hname : name? markers.description rest = some name) (offset : Nat) :
    boundaries (scan markers previous offset (markers.tag :: rest)) =
      ⟨name.lower, offset,
          offset + markers.tag.utf8Size + name.byteLength + markers.description.utf8Size⟩ ::
        boundaries (scan markers (some markers.tag) (offset + markers.tag.utf8Size) rest) := by
  rw [scan, if_pos ⟨rfl, hprevious⟩, markAt, hname]
  rfl

theorem boundaries_scan_of_not_begins {markers : Markers} {previous : Option Char} {c : Char}
    {rest : Text} (hbegins : ¬ BeginsBoundary markers previous c rest) (offset : Nat) :
    boundaries (scan markers previous offset (c :: rest)) =
      boundaries (scan markers (some c) (offset + c.utf8Size) rest) := by
  rw [scan]
  split
  · rename_i hmark
    cases hname : name? markers.description rest with
    | some name => exact absurd ⟨hmark.1, hmark.2, name, hname⟩ hbegins
    | none =>
        rw [markAt, hname]
        dsimp only
        split <;> rfl
  · rfl

def StandsIn (markers : Markers) (offset : Nat) (text : Text) (found : Boundary) : Prop :=
  ∃ before name after : Text, IsName name ∧
    text = before ++ markers.tag :: (name ++ markers.description :: after) ∧
    found = ⟨name.lower, offset + before.byteLength, offset + before.byteLength +
      markers.tag.utf8Size + name.byteLength + markers.description.utf8Size⟩

theorem StandsIn.cons {markers : Markers} {offset : Nat} {c : Char} {rest : Text}
    {found : Boundary} (hfound : StandsIn markers (offset + c.utf8Size) rest found) :
    StandsIn markers offset (c :: rest) found := by
  obtain ⟨before, name, after, hname, rfl, rfl⟩ := hfound
  exact ⟨c :: before, name, after, hname, rfl, by simp [Nat.add_assoc]⟩

theorem standsIn_of_mem_boundaries {markers : Markers} {previous : Option Char} {offset : Nat}
    {text : Text} {found : Boundary}
    (hmem : found ∈ boundaries (scan markers previous offset text)) :
    StandsIn markers offset text found := by
  induction text generalizing previous offset with
  | nil => contradiction
  | cons c rest ih =>
      by_cases htag : BeginsBoundary markers previous c rest
      · obtain ⟨rfl, hprevious, name, hfound⟩ := htag
        rw [boundaries_scan_tag hprevious hfound] at hmem
        cases hmem with
        | head =>
            obtain ⟨hname, after, rfl⟩ := isName_of_name? hfound
            exact ⟨[], name, after, hname, rfl, rfl⟩
        | tail _ hrest => exact (ih hrest).cons
      · rw [boundaries_scan_of_not_begins htag] at hmem
        exact (ih hmem).cons

theorem scan_boundary {previous : Option Char} (hprevious : previous ≠ some '\\') {name : Text}
    (hname : IsName name) (after : Text) (offset : Nat) :
    scan Markers.standard previous offset ('@' :: (name ++ ':' :: after)) =
      .boundary ⟨name.lower, offset, offset + 1 + name.byteLength + 1⟩ ::
        scan Markers.standard (some ':') (offset + 1 + name.byteLength + 1) after := by
  have hquiet : Quiet (some ':') [] after := by
    intro before rest hsplit
    simp at hsplit
  have hscan := scan_segment hprevious hname hquiet offset
  rw [byteLength_segment] at hscan
  simpa [segment, Nat.add_assoc] using hscan

theorem scan_cons_cases (previous : Option Char) (offset : Nat) (c : Char) (rest : Text) :
    (∃ name after, c = '@' ∧ IsName name ∧ rest = name ++ ':' :: after ∧
      scan Markers.standard previous offset (c :: rest) =
        .boundary ⟨name.lower, offset, offset + 1 + name.byteLength + 1⟩ ::
          scan Markers.standard (some ':') (offset + 1 + name.byteLength + 1) after) ∨
    scan Markers.standard previous offset (c :: rest) =
      .loose :: scan Markers.standard (some c) (offset + c.utf8Size) rest ∨
    (¬ (c = '@' ∧ isFree previous = true) ∧
      scan Markers.standard previous offset (c :: rest) =
        scan Markers.standard (some c) (offset + c.utf8Size) rest) := by
  by_cases hmark : c = Markers.standard.tag ∧ previous ≠ some Markers.standard.escape
  · obtain ⟨rfl, hprevious⟩ := hmark
    cases hfound : name? Markers.standard.description rest with
    | some name =>
        obtain ⟨hname, after, rfl⟩ := isName_of_name? hfound
        exact .inl ⟨name, after, rfl, hname, rfl, scan_boundary hprevious hname after offset⟩
    | none =>
        right
        rw [scan, if_pos ⟨rfl, hprevious⟩, markAt, hfound]
        dsimp only
        cases hfree : isFree previous || isFree rest.head? with
        | true => exact .inl rfl
        | false =>
            right
            refine ⟨?_, rfl⟩
            rw [(Bool.or_eq_false_iff.mp hfree).1]
            simp
  · right
    right
    rw [scan, if_neg hmark]
    refine ⟨?_, rfl⟩
    rintro ⟨rfl, hfree⟩
    have hescape : previous = some Markers.standard.escape :=
      Decidable.byContradiction fun hprevious => hmark ⟨rfl, hprevious⟩
    rw [hescape] at hfree
    contradiction

/-- Boundaries between two offsets, each with its content before the next. -/
def Ordered (lower upper : Nat) : List Boundary → Prop
  | [] => lower ≤ upper
  | boundary :: rest =>
      lower ≤ boundary.offset ∧ boundary.offset < boundary.contentOffset ∧
        Ordered boundary.contentOffset upper rest

theorem Ordered.of_le {lower middle upper : Nat} {found : List Boundary}
    (hordered : Ordered middle upper found) (hle : lower ≤ middle) :
    Ordered lower upper found := by
  cases found with
  | nil => exact Nat.le_trans hle hordered
  | cons boundary rest => exact ⟨Nat.le_trans hle hordered.1, hordered.2⟩

private theorem Ordered.le_next {lower upper : Nat} {found : List Boundary}
    (hordered : Ordered lower upper found) :
    lower ≤ (found.head?.map Boundary.offset).getD upper := by
  cases found with
  | nil => exact hordered
  | cons boundary rest => exact hordered.1

theorem Ordered.start_le_stop {lower upper : Nat} {found : List Boundary}
    (hordered : Ordered lower upper found) :
    ∀ range ∈ contentRanges upper found, range.start ≤ range.stop := by
  induction found generalizing lower with
  | nil => simp [contentRanges]
  | cons boundary rest ih =>
      rw [contentRanges_cons, List.forall_mem_cons]
      exact ⟨hordered.2.2.le_next, ih hordered.2.2⟩

theorem Ordered.raise {lower middle upper : Nat} {found : List Boundary}
    (hordered : Ordered lower upper found) (hupper : middle ≤ upper)
    (hmiddle : ∀ boundary ∈ found, middle ≤ boundary.offset) : Ordered middle upper found := by
  cases found with
  | nil => exact hupper
  | cons boundary rest => exact ⟨hmiddle boundary List.mem_cons_self, hordered.2⟩

/-- Characters that keep the tags apart: what stands for a tag stands in no tag. -/
structure Separating (markers : Markers) : Prop where
  not_nameChar : isNameChar markers.tag = false
  tag_ne_description : markers.tag ≠ markers.description

private theorem separating_standard : Separating Markers.standard :=
  ⟨isNameChar_tag, by decide⟩

theorem Separating.tag_not_mem {markers : Markers} (hseparating : Separating markers)
    {name : Text} (hname : IsName name) : markers.tag ∉ name ++ [markers.description] := by
  intro hmem
  rcases List.mem_append.mp hmem with hmem | hmem
  · have htag := List.all_eq_true.mp hname.all markers.tag hmem
    rw [hseparating.not_nameChar] at htag
    contradiction
  · exact hseparating.tag_ne_description (List.mem_singleton.mp hmem)

private theorem Separating.le_offset_of_mem {markers : Markers} (hseparating : Separating markers)
    {previous : Option Char} {offset : Nat} {name after : Text} (hname : IsName name)
    {found : Boundary} (hmem : found ∈ boundaries
      (scan markers previous offset (name ++ markers.description :: after))) :
    offset + name.byteLength + markers.description.utf8Size ≤ found.offset := by
  obtain ⟨before, other, rest, -, hsplit, rfl⟩ := standsIn_of_mem_boundaries hmem
  rw [← List.singleton_append, ← List.append_assoc] at hsplit
  have hle : Text.byteLength (name ++ [markers.description]) ≤ before.byteLength := by
    rcases List.append_eq_append_iff.mp hsplit with ⟨middle, rfl, -⟩ | ⟨middle, hmiddle, hrest⟩
    · simp
    · cases middle with
      | nil => simp [hmiddle]
      | cons c middle =>
          rw [List.cons_append, List.cons.injEq] at hrest
          refine absurd ?_ (hseparating.tag_not_mem hname)
          simp [hmiddle, hrest.1]
  simp only [Text.byteLength_append, Text.byteLength_cons, Text.byteLength_nil] at hle
  dsimp only
  omega

theorem Separating.ordered_boundaries_scan {markers : Markers} (hseparating : Separating markers)
    (previous : Option Char) (offset : Nat) (text : Text) :
    Ordered offset (offset + text.byteLength) (boundaries (scan markers previous offset text)) := by
  induction text generalizing previous offset with
  | nil => exact Nat.le_add_right offset _
  | cons c rest ih =>
      have hrest := ih (some c) (offset + c.utf8Size)
      rw [Nat.add_assoc, ← Text.byteLength_cons] at hrest
      by_cases htag : BeginsBoundary markers previous c rest
      · obtain ⟨rfl, hprevious, name, hfound⟩ := htag
        rw [boundaries_scan_tag hprevious hfound]
        obtain ⟨hname, after, rfl⟩ := isName_of_name? hfound
        have hpositive := markers.tag.utf8Size_pos
        refine ⟨Nat.le_refl offset, by dsimp only; omega, hrest.raise ?_ ?_⟩
        · simp only [Text.byteLength_append, Text.byteLength_cons]
          omega
        · exact fun boundary hmem => hseparating.le_offset_of_mem hname hmem
      · rw [boundaries_scan_of_not_begins htag]
        exact hrest.of_le (Nat.le_add_right offset c.utf8Size)

private theorem start_le_stop_of_mem_contentRanges (body : Text) :
    ∀ range ∈ contentRanges body.byteLength (boundaries (marks Markers.standard body)),
      range.start ≤ range.stop := by
  have hordered := separating_standard.ordered_boundaries_scan none 0 body
  rw [Nat.zero_add] at hordered
  exact hordered.start_le_stop

def entries (body : Text) : List (Text × Text) :=
  fieldsOf Markers.standard body (boundaries (marks Markers.standard body))

/-- A body with nothing before its first tag, no loose tag character, and a content for
every tag. -/
structure Aligned (body : Text) : Prop where
  leading_eq_nil : leading Markers.standard body (boundaries (marks Markers.standard body)) = []
  not_loose : .loose ∉ marks Markers.standard body
  content_ne_nil : ∀ entry ∈ entries body, entry.2 ≠ []

/-- A body gives its entries or a list of what does not line up; its tags never overlap. -/
theorem tagBody_cases (body : Text) :
    (Aligned body ∧ tagBody Markers.standard body =
      .ok (FieldMap.ofList ((entries body).map fun entry => Field.classify entry.1 entry.2))) ∨
    ∃ tags contents, tagBody Markers.standard body = .error (.misaligned tags contents) := by
  have hordered : (contentRanges body.byteLength (boundaries (marks Markers.standard body))).any
      (fun range => range.stop < range.start) = false := by
    rw [List.any_eq_false]
    intro range hrange
    simpa using start_le_stop_of_mem_contentRanges body range hrange
  rw [tagBody]
  dsimp only
  rw [hordered, if_neg Bool.false_ne_true]
  split
  · rename_i haligned
    exact .inl ⟨⟨haligned.1, haligned.2.1, haligned.2.2⟩, rfl⟩
  · exact .inr ⟨_, _, rfl⟩

theorem aligned_of_tagBody {body : Text} {map : FieldMap}
    (hok : tagBody Markers.standard body = .ok map) :
    Aligned body ∧
      map = FieldMap.ofList ((entries body).map fun entry => Field.classify entry.1 entry.2) := by
  rcases tagBody_cases body with ⟨haligned, htagged⟩ | ⟨tags, contents, hfault⟩
  · rw [htagged] at hok
    exact ⟨haligned, (Except.ok.inj hok).symm⟩
  · rw [hfault] at hok
    contradiction

theorem trim_clean (segment : Text) :
    (clean Markers.standard segment).trim = clean Markers.standard segment := by
  have hpattern : [Markers.standard.escape, Markers.standard.tag] ≠ [] := List.cons_ne_nil _ _
  have hreplacement : [Markers.standard.tag] ≠ [] := List.cons_ne_nil _ _
  apply Text.trim_eq_self
  · intro c hc
    rcases Text.head?_replace hpattern hreplacement hc with htag | hhead
    · obtain rfl : Markers.standard.tag = c := Option.some.inj htag
      rfl
    · exact Text.isBlank_head?_trim segment c hhead
  · intro c hc
    rcases Text.getLast?_replace hpattern hreplacement hc with htag | hlast
    · obtain rfl : Markers.standard.tag = c := Option.some.inj htag
      rfl
    · exact Text.isBlank_getLast?_trimEnd segment.trimStart c hlast

theorem exists_segment_of_mem_entries {body : Text} {entry : Text × Text}
    (hmem : entry ∈ entries body) :
    (∃ name, IsName name ∧ entry.1 = name.lower) ∧
      ∃ segment, entry.2 = clean Markers.standard segment := by
  obtain ⟨hname, hcontent⟩ := List.of_mem_zip hmem
  obtain ⟨found, hfound, hname⟩ := List.mem_map.mp hname
  obtain ⟨range, -, hcontent⟩ := List.mem_map.mp hcontent
  obtain ⟨before, name, after, hisName, -, rfl⟩ := standsIn_of_mem_boundaries hfound
  exact ⟨⟨name, hisName, hname.symm⟩, _, hcontent.symm⟩

private theorem marks_of_isTagged {body : Text}
    (htagged : Extraction.isTagged Markers.standard body = true) :
    ∃ previous offset rest, isFree previous = true ∧
      marks Markers.standard body = scan Markers.standard previous offset ('@' :: rest) := by
  obtain ⟨rest, hrest⟩ := List.head?_eq_some_iff.mp (of_decide_eq_true htagged)
  have hsplit : body = body.takeWhile isBlank ++ '@' :: rest := by
    rw [← show body.trimStart = '@' :: rest from hrest]
    exact List.takeWhile_append_dropWhile.symm
  have hblank : ∀ c ∈ body.takeWhile isBlank, isBlank c = true :=
    List.all_eq_true.mp List.all_takeWhile
  have hquiet : Quiet none (body.takeWhile isBlank) ('@' :: rest) := by
    refine quiet_of_shielded (Text.shielded_of_not_mem ?_) none _
    intro hmem
    exact absurd (hblank '@' hmem) (by decide)
  have hmarks := scan_append_of_quiet hquiet 0
  rw [← hsplit] at hmarks
  refine ⟨_, _, rest, ?_, hmarks⟩
  rw [Option.or_none]
  cases hlast : (body.takeWhile isBlank).getLast? with
  | none => rfl
  | some c => exact hblank c (List.mem_of_getLast? hlast)

theorem entries_ne_nil {body : Text}
    (htagged : Extraction.isTagged Markers.standard body = true) (haligned : Aligned body) :
    entries body ≠ [] := by
  obtain ⟨previous, offset, rest, hfree, hmarks⟩ := marks_of_isTagged htagged
  rcases scan_cons_cases previous offset '@' rest with
    ⟨name, after, -, -, -, hscan⟩ | hscan | ⟨hbound, -⟩
  · rw [entries, hmarks, hscan, boundaries, List.filterMap_cons, fieldsOf, contentRanges_cons]
    exact List.cons_ne_nil _ _
  · refine absurd ?_ haligned.not_loose
    rw [hmarks, hscan]
    exact List.mem_cons_self
  · exact absurd ⟨rfl, hfree⟩ hbound

end Tagging
end Docblock
