import Docblock.Proofs.Tagging.Boundaries
import Docblock.Proofs.Text.Tiling
import Mathlib.Data.List.Chain

namespace Docblock.Tagging

/-! Which characters keep the tags of every body apart, so that no content ends before it
begins. -/

/-- Tags each of which ends before the next begins. -/
def Apart (found : List Boundary) : Prop :=
  found.IsChain fun first second => first.contentOffset ≤ second.offset

instance (found : List Boundary) : Decidable (Apart found) :=
  inferInstanceAs (Decidable (found.IsChain _))

theorem Ordered.apart {lower upper : Nat} {found : List Boundary}
    (hordered : Ordered lower upper found) : Apart found := by
  induction found generalizing lower with
  | nil => exact .nil
  | cons boundary rest ih =>
      cases rest with
      | nil => exact .singleton boundary
      | cons next rest => exact .cons_cons hordered.2.2.1 (ih hordered.2.2)

theorem StandsIn.offset_lt {markers : Markers} {offset : Nat} {text : Text} {found : Boundary}
    (hfound : StandsIn markers offset text found) : found.offset < found.contentOffset := by
  obtain ⟨before, name, after, -, -, rfl⟩ := hfound
  have hpositive := markers.tag.utf8Size_pos
  dsimp only
  omega

theorem StandsIn.boundary_offset {markers : Markers} {body : Text} {found : Boundary}
    (hfound : StandsIn markers 0 body found) : body.IsBoundary found.offset := by
  obtain ⟨before, name, after, -, rfl, rfl⟩ := hfound
  exact ⟨before, _, rfl, Nat.zero_add _⟩

theorem StandsIn.boundary_contentOffset {markers : Markers} {body : Text} {found : Boundary}
    (hfound : StandsIn markers 0 body found) : body.IsBoundary found.contentOffset := by
  obtain ⟨before, name, after, -, rfl, rfl⟩ := hfound
  refine ⟨before ++ markers.tag :: (name ++ [markers.description]), after, by simp, ?_⟩
  simp [Nat.add_assoc]

private theorem mem_contentRanges {length : Nat} {found : List Boundary} {range : ByteRange}
    (hmem : range ∈ contentRanges length found) :
    (∃ boundary ∈ found, range.start = boundary.contentOffset) ∧
      (range.stop = length ∨ ∃ boundary ∈ found, range.stop = boundary.offset) := by
  induction found with
  | nil => contradiction
  | cons boundary rest ih =>
      rw [contentRanges_cons] at hmem
      cases hmem with
      | head =>
          refine ⟨⟨boundary, List.mem_cons_self, rfl⟩, ?_⟩
          cases rest with
          | nil => exact .inl rfl
          | cons next rest => exact .inr ⟨next, by simp, rfl⟩
      | tail _ hrest =>
          obtain ⟨⟨first, hfirst, hstart⟩, hstop⟩ := ih hrest
          refine ⟨⟨first, List.mem_cons_of_mem boundary hfirst, hstart⟩, hstop.imp_right ?_⟩
          rintro ⟨second, hsecond, hstop⟩
          exact ⟨second, List.mem_cons_of_mem boundary hsecond, hstop⟩

private theorem apart_iff_start_le_stop {length : Nat} {found : List Boundary}
    (hlength : ∀ boundary ∈ found, boundary.contentOffset ≤ length) :
    Apart found ↔ ∀ range ∈ contentRanges length found, range.start ≤ range.stop := by
  induction found with
  | nil => simp [Apart, contentRanges]
  | cons boundary rest ih =>
      rw [List.forall_mem_cons] at hlength
      cases rest with
      | nil => simpa [Apart, contentRanges] using hlength.1
      | cons next rest =>
          rw [contentRanges, List.forall_mem_cons, ← ih hlength.2]
          exact List.isChain_cons_cons

section Bodies

variable (markers : Markers) (body : Text)

theorem standsIn_of_mem_marks {found : Boundary}
    (hmem : found ∈ boundaries (marks markers body)) : StandsIn markers 0 body found :=
  standsIn_of_mem_boundaries hmem

theorem apart_iff_start_le_stop_body :
    Apart (boundaries (marks markers body)) ↔
      ∀ range ∈ contentRanges body.byteLength (boundaries (marks markers body)),
        range.start ≤ range.stop :=
  apart_iff_start_le_stop fun _ hmem =>
    (standsIn_of_mem_marks markers body hmem).boundary_contentOffset.le

theorem apart_iff_fits :
    Apart (boundaries (marks markers body)) ↔
      ∀ range ∈ contentRanges body.byteLength (boundaries (marks markers body)),
        range.Fits body := by
  rw [apart_iff_start_le_stop_body]
  constructor
  · intro hle range hrange
    obtain ⟨⟨first, hfirst, hstart⟩, hstop⟩ := mem_contentRanges hrange
    apply ByteRange.fits_of_boundaries (hle range hrange)
    · rw [hstart]
      exact (standsIn_of_mem_marks markers body hfirst).boundary_contentOffset
    · rcases hstop with hstop | ⟨second, hsecond, hstop⟩
      · exact ⟨body, [], by simp, hstop⟩
      · rw [hstop]
        exact (standsIn_of_mem_marks markers body hsecond).boundary_offset
  · exact fun hfits range hrange => (hfits range hrange).start_le_stop

theorem tagBody_eq_overlap_iff :
    tagBody markers body = .error .overlap ↔ ¬ Apart (boundaries (marks markers body)) := by
  rw [apart_iff_start_le_stop_body, tagBody]
  dsimp only
  split
  · rename_i hany
    simpa using hany
  · rename_i hany
    have hle : ∀ range ∈ contentRanges body.byteLength (boundaries (marks markers body)),
        range.start ≤ range.stop := by
      simpa using hany
    refine iff_of_false ?_ (not_not_intro hle)
    split <;> simp

end Bodies

theorem exists_name?_append {description : Char} {name : Text} (hname : IsName name)
    (after : Text) :
    ∃ longer, name? description (name ++ description :: after) = some longer ∧
      name <+: longer := by
  obtain ⟨hne, hall⟩ := hname
  induction name with
  | nil => contradiction
  | cons c name ih =>
      rw [List.all_cons, Bool.and_eq_true] at hall
      cases name with
      | nil =>
          rw [List.singleton_append, name?, if_pos hall.1]
          cases name? description (description :: after) with
          | none => exact ⟨[c], by simp, List.prefix_rfl⟩
          | some longer => exact ⟨c :: longer, rfl, by simp⟩
      | cons d name =>
          obtain ⟨longer, hlonger, hbegins⟩ := ih (List.cons_ne_nil d name) hall.2
          rw [List.cons_append, name?, if_pos hall.1, hlonger]
          exact ⟨c :: longer, rfl, List.cons_prefix_cons.mpr ⟨rfl, hbegins⟩⟩

private theorem exists_nameChar_ne (first second : Char) :
    ∃ c, isNameChar c = true ∧ c ≠ first ∧ c ≠ second := by
  have hnames : isNameChar 'a' = true ∧ isNameChar 'b' = true ∧ isNameChar 'c' = true := by
    decide +kernel
  have hfree : ('a' ≠ first ∧ 'a' ≠ second) ∨ ('b' ≠ first ∧ 'b' ≠ second) ∨
      ('c' ≠ first ∧ 'c' ≠ second) := by
    grind
  rcases hfree with hne | hne | hne
  · exact ⟨'a', hnames.1, hne⟩
  · exact ⟨'b', hnames.2.1, hne⟩
  · exact ⟨'c', hnames.2.2, hne⟩

/-- Two tags, the second of which begins right behind the first character of a name. -/
def twice (markers : Markers) (c : Char) : Text :=
  [markers.tag, c, markers.tag, c, markers.description]

private theorem exists_name?_twice {markers : Markers} (hmarkers : ¬ Separating markers) {c : Char}
    (hname : isNameChar c = true) :
    ∃ longer, name? markers.description [c, markers.tag, c, markers.description] = some longer ∧
      [c] <+: longer := by
  by_cases hnameChar : isNameChar markers.tag = true
  · have hwhole : IsName [c, markers.tag, c] :=
      ⟨List.cons_ne_nil _ _, by simp [hname, hnameChar]⟩
    obtain ⟨longer, hlonger, hbegins⟩ := exists_name?_append hwhole []
    exact ⟨longer, hlonger, (List.prefix_append [c] _).trans hbegins⟩
  · have hdescription : markers.tag = markers.description :=
      Decidable.byContradiction fun hne => hmarkers ⟨by simpa using hnameChar, hne⟩
    have hsingle : IsName [c] := ⟨List.cons_ne_nil c [], by simp [hname]⟩
    rw [hdescription]
    exact exists_name?_append hsingle [c, markers.description]

private theorem not_apart_twice {markers : Markers} (hmarkers : ¬ Separating markers) {c : Char}
    (hname : isNameChar c = true) (htag : c ≠ markers.tag) (hescape : c ≠ markers.escape) :
    ¬ Apart (boundaries (marks markers (twice markers c))) := by
  obtain ⟨longer, hlonger, rest, rfl⟩ := exists_name?_twice hmarkers hname
  obtain ⟨second, hsecond, -⟩ : ∃ second,
      name? markers.description [c, markers.description] = some second ∧ [c] <+: second :=
    exists_name?_append ⟨List.cons_ne_nil c [], by simp [hname]⟩ []
  have hnone : ¬ BeginsBoundary markers (some markers.tag) c
      [markers.tag, c, markers.description] := fun hbegins => htag hbegins.1
  have hpositive := markers.description.utf8Size_pos
  rw [marks, twice, boundaries_scan_tag (by simp) hlonger, boundaries_scan_of_not_begins hnone,
    boundaries_scan_tag (by simpa using hescape) hsecond]
  intro hapart
  have hle := (List.isChain_cons_cons.mp hapart).1
  simp only [Text.byteLength_append, Text.byteLength_cons, Text.byteLength_nil] at hle
  omega

/-- The tags of every body lie one behind the other, and every content can be cut out, exactly
when the tag character is neither a name character nor the description character.  Two tags
that overlap are a fault. -/
theorem apart_iff_separating (markers : Markers) :
    (∀ body, ∀ found ∈ boundaries (marks markers body),
      found.offset < found.contentOffset ∧ found.contentOffset ≤ body.byteLength) ∧
    (∀ body, Apart (boundaries (marks markers body)) ↔
      ∀ range ∈ contentRanges body.byteLength (boundaries (marks markers body)),
        range.Fits body) ∧
    (∀ body, tagBody markers body = .error .overlap ↔
      ¬ Apart (boundaries (marks markers body))) ∧
    ((∀ body, Apart (boundaries (marks markers body))) ↔ Separating markers) := by
  refine ⟨?_, apart_iff_fits markers, tagBody_eq_overlap_iff markers, ?_, ?_⟩
  · intro body found hmem
    have hfound := standsIn_of_mem_marks markers body hmem
    exact ⟨hfound.offset_lt, hfound.boundary_contentOffset.le⟩
  · intro hapart
    by_contra hmarkers
    obtain ⟨c, hname, htag, hescape⟩ := exists_nameChar_ne markers.tag markers.escape
    exact not_apart_twice hmarkers hname htag hescape (hapart _)
  · intro hseparating body
    exact (hseparating.ordered_boundaries_scan none 0 body).apart

def hyphenMarkers : Markers :=
  { Markers.standard with tag := '-' }

/-- Where a hyphen begins a tag, a name with a hyphen in it holds a second tag, and the content
of the first would end before it begins. -/
theorem hyphen_tags_overlap :
    let body : Text := "-name: X -see-also: Y".toList
    boundaries (marks hyphenMarkers body) =
        [⟨"name".toList, 0, 6⟩, ⟨"see-also".toList, 9, 19⟩, ⟨"also".toList, 13, 19⟩] ∧
      ¬ Apart (boundaries (marks hyphenMarkers body)) ∧
      contentRanges body.byteLength (boundaries (marks hyphenMarkers body)) =
        [⟨6, 9⟩, ⟨19, 13⟩, ⟨19, 21⟩] ∧
      tagBody hyphenMarkers body = .error .overlap := by
  decide +kernel

end Docblock.Tagging
