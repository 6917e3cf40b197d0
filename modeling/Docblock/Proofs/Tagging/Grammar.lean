import Docblock.Proofs.Tagging.Occurrence
import Docblock.Proofs.Text.Tiling
import Mathlib.Tactic.Tauto

namespace Docblock.Tagging

/-! A body is cut at its tags in one way only.  It is well formed when the cut leaves nothing but
blanks in front of the first tag, some text behind every tag, and no tag character that could be
taken for a tag. -/

def IsUntagged (before after : Text) : Prop :=
  Escaped before ∨ ¬ BeginsTag after

/-- A tag character that is content: it has an escape in front, or neither begins a tag nor
stands free. -/
def IsContent (before after : Text) : Prop :=
  Escaped before ∨ ¬ BeginsTag after ∧ ¬ StandsFree before after

/-- All tag characters of a text between two other parts of a body are as required. -/
def AllTags (required : Text → Text → Prop) (before text after : Text) : Prop :=
  ∀ left right, text = left ++ '@' :: right → required (before ++ left) (right ++ after)

/-- Entries that may follow the part of a body in front of them: their tags are not escaped, and
the tag characters in their texts are as required. -/
inductive Follows (required : Text → Text → Prop) : Text → List (Text × Text) → Prop where
  | nil (before : Text) : Follows required before []
  | cons {before name text : Text} {rest : List (Text × Text)} (hescaped : ¬ Escaped before)
      (hname : IsName name)
      (htext : AllTags required (before ++ '@' :: name ++ [':']) text (compose rest))
      (hrest : Follows required (before ++ segment (name, text)) rest) :
      Follows required before ((name, text) :: rest)

/-- A body that is a lead and entries, with tag characters as required in the lead and in the
texts of the entries. -/
structure Cut (required : Text → Text → Prop) (body lead : Text)
    (entries : List (Text × Text)) : Prop where
  body_eq : body = lead ++ compose entries
  lead_tags : AllTags required [] lead (compose entries)
  follows : Follows required lead entries

structure WellFormed (body lead : Text) (entries : List (Text × Text)) : Prop extends
    Cut IsContent body lead entries where
  lead_blank : lead.allBlank = true
  text_nonblank : ∀ entry ∈ entries, Text.allBlank entry.2 = false

theorem AllTags.of_cons {required : Text → Text → Prop} {before text after : Text} {c : Char}
    (htags : AllTags required before (c :: text) after) :
    AllTags required (before ++ [c]) text after := by
  intro left right hsplit
  have hrequired := htags (c :: left) right (by rw [hsplit, List.cons_append])
  rwa [List.append_cons] at hrequired

theorem AllTags.strengthen {required stronger : Text → Text → Prop} {before text after : Text}
    (htags : AllTags required before text after)
    (hstronger : ∀ left right, before ++ (text ++ after) = left ++ '@' :: right →
      required left right → stronger left right) :
    AllTags stronger before text after := by
  intro left right hsplit
  apply hstronger
  · simp [hsplit]
  · exact htags left right hsplit

private theorem Follows.strengthen {required stronger : Text → Text → Prop} {before : Text}
    {entries : List (Text × Text)} (hfollows : Follows required before entries)
    (hstronger : ∀ left right, before ++ compose entries = left ++ '@' :: right →
      required left right → stronger left right) :
    Follows stronger before entries := by
  induction hfollows with
  | nil before => exact .nil before
  | @cons before name text rest hescaped hname htext hrest ih =>
      refine .cons hescaped hname (htext.strengthen ?_) (ih ?_)
      · intro left right hbody
        apply hstronger
        rw [← hbody]
        simp [segment]
      · intro left right hbody
        apply hstronger
        rw [← hbody, compose_cons, List.append_assoc]

theorem Cut.strengthen {required stronger : Text → Text → Prop} {body lead : Text}
    {entries : List (Text × Text)} (hcut : Cut required body lead entries)
    (hstronger : ∀ left right, body = left ++ '@' :: right →
      required left right → stronger left right) :
    Cut stronger body lead entries where
  body_eq := hcut.body_eq
  lead_tags := hcut.lead_tags.strengthen fun left right hbody =>
    hstronger left right (hcut.body_eq.trans hbody)
  follows := hcut.follows.strengthen fun left right hbody =>
    hstronger left right (hcut.body_eq.trans hbody)

theorem markOf_of_isUntagged {before after : Text} (huntagged : IsUntagged before after) :
    markOf before after = none ∨ markOf before after = some .loose := by
  by_cases hescaped : Escaped before
  · exact .inl (markOf_of_escaped hescaped after)
  · rw [markOf_of_not_beginsTag hescaped (huntagged.resolve_left hescaped)]
    split
    · exact .inr rfl
    · exact .inl rfl

theorem isContent_iff {before after : Text} :
    IsContent before after ↔ IsUntagged before after ∧ markOf before after ≠ some .loose := by
  rw [ne_eq, markOf_eq_loose_iff, IsContent, IsUntagged]
  tauto

theorem Cut.isUntagged {body lead : Text} {entries : List (Text × Text)}
    (hcut : Cut IsContent body lead entries) : Cut IsUntagged body lead entries :=
  hcut.strengthen fun _ _ _ hcontent => (isContent_iff.mp hcontent).1

private theorem exists_cut_behind (before text : Text) :
    ∃ lead entries, text = lead ++ compose entries ∧
      AllTags IsUntagged before lead (compose entries) ∧
      Follows IsUntagged (before ++ lead) entries := by
  induction hlength : text.length using Nat.strongRecOn generalizing before text with
  | ind length ih =>
      subst hlength
      cases text with
      | nil => exact ⟨[], [], rfl, by simp [AllTags], .nil _⟩
      | cons c rest =>
          by_cases htag : c = '@' ∧ ¬ Escaped before ∧ BeginsTag rest
          · obtain ⟨rfl, hescaped, name, after, hname, rfl⟩ := htag
            -- The text of this tag is the lead of what stands behind it.
            obtain ⟨lead, entries, rfl, htags, hfollows⟩ :=
              ih after.length (by simp; omega) (before ++ '@' :: name ++ [':']) after rfl
            refine ⟨[], (name, lead) :: entries, by simp [segment], by simp [AllTags], ?_⟩
            rw [List.append_nil]
            refine .cons hescaped hname htags ?_
            simpa [segment] using hfollows
          · obtain ⟨lead, entries, rfl, htags, hfollows⟩ :=
              ih rest.length (by simp) (before ++ [c]) rest rfl
            refine ⟨c :: lead, entries, rfl, ?_, by simpa using hfollows⟩
            intro left right hsplit
            cases left with
            | nil =>
                obtain ⟨rfl, rfl⟩ := List.cons.inj hsplit
                rw [List.append_nil, IsUntagged]
                by_cases hescaped : Escaped before
                · exact .inl hescaped
                · exact .inr fun hbegins => htag ⟨rfl, hescaped, hbegins⟩
            | cons d left =>
                obtain ⟨rfl, rfl⟩ := List.cons.inj hsplit
                have hrequired := htags left right rfl
                rwa [List.append_assoc] at hrequired

theorem exists_cut (body : Text) : ∃ lead entries, Cut IsUntagged body lead entries := by
  obtain ⟨lead, entries, hbody, htags, hfollows⟩ := exists_cut_behind [] body
  exact ⟨lead, entries, hbody, htags, hfollows⟩

/-! The marks of a body that is cut are its tags and, where the requirement leaves any, loose
tag characters. -/

section Marks

variable {required : Text → Text → Prop} (keeps : Mark → Bool)

theorem filter_marksBehind_append
    (hrequired : ∀ before after, required before after →
      ∀ mark ∈ markOf before after, keeps mark = false)
    {before text after : Text} (htags : AllTags required before text after) :
    (marksBehind before (text ++ after)).filter keeps =
      (marksBehind (before ++ text) after).filter keeps := by
  induction text generalizing before with
  | nil => simp
  | cons c text ih =>
      have hnothing : ((if c = '@' then markOf before (text ++ after) else none).toList).filter
          keeps = [] := by
        rw [List.filter_eq_nil_iff]
        intro mark hmark
        obtain ⟨rfl, hfound⟩ := Option.ite_none_right_eq_some.mp (Option.mem_toList.mp hmark)
        have htag := htags [] text rfl
        rw [List.append_nil] at htag
        rw [hrequired before (text ++ after) htag mark hfound]
        exact Bool.false_ne_true
      rw [List.cons_append, marksBehind_cons, List.filter_append, hnothing, List.nil_append,
        ih htags.of_cons, List.append_assoc, List.singleton_append]

private theorem marksBehind_segment {before name : Text} (hescaped : ¬ Escaped before)
    (hname : IsName name) (text : Text) :
    marksBehind before (segment (name, text)) =
      .boundary ⟨name.lower, before.byteLength, before.byteLength + 1 + name.byteLength + 1⟩ ::
        marksBehind (before ++ '@' :: name ++ [':']) text := by
  have hscan := scan_boundary hescaped hname text before.byteLength
  rw [marksBehind, segment, List.cons_append, hscan, marksBehind, List.getLast?_concat]
  simp [Nat.add_assoc, show '@'.utf8Size = 1 from rfl, show ':'.utf8Size = 1 from rfl]

private theorem filter_marksBehind_compose
    (hrequired : ∀ before after, required before after →
      ∀ mark ∈ markOf before after, keeps mark = false)
    (hkeeps : ∀ boundary, keeps (.boundary boundary) = true) {before : Text}
    {entries : List (Text × Text)} (hfollows : Follows required before entries) :
    (marksBehind before (compose entries)).filter keeps =
      (boundariesFrom before.byteLength entries).map Mark.boundary := by
  induction hfollows with
  | nil before => rfl
  | @cons before name text rest hescaped hname htext hrest ih =>
      have hbody : compose ((name, text) :: rest) = segment (name, text ++ compose rest) := by
        simp [segment]
      have hbehind : before ++ '@' :: name ++ [':'] ++ text = before ++ segment (name, text) := by
        simp [segment]
      rw [hbody, marksBehind_segment hescaped hname, List.filter_cons_of_pos (hkeeps _),
        filter_marksBehind_append keeps hrequired htext, hbehind, ih, boundariesFrom, List.map_cons,
        Text.byteLength_append]

theorem filter_marks_of_cut
    (hrequired : ∀ before after, required before after →
      ∀ mark ∈ markOf before after, keeps mark = false)
    (hkeeps : ∀ boundary, keeps (.boundary boundary) = true) {body lead : Text}
    {entries : List (Text × Text)} (hcut : Cut required body lead entries) :
    (marks Markers.standard body).filter keeps =
      (boundariesFrom lead.byteLength entries).map Mark.boundary := by
  rw [marks_eq_marksBehind, hcut.body_eq, filter_marksBehind_append keeps hrequired hcut.lead_tags]
  exact filter_marksBehind_compose keeps hrequired hkeeps hcut.follows

end Marks

def Mark.isBoundary : Mark → Bool
  | .boundary _ => true
  | .loose => false

theorem boundaries_of_cut {body lead : Text} {entries : List (Text × Text)}
    (hcut : Cut IsUntagged body lead entries) :
    boundaries (marks Markers.standard body) = boundariesFrom lead.byteLength entries := by
  have hfilter : (marks Markers.standard body).filter Mark.isBoundary =
      (boundariesFrom lead.byteLength entries).map Mark.boundary := by
    refine filter_marks_of_cut Mark.isBoundary ?_ (fun _ => rfl) hcut
    intro before after huntagged mark hmark
    rcases markOf_of_isUntagged huntagged with hnone | hloose
    · rw [hnone] at hmark
      contradiction
    · rw [hloose] at hmark
      obtain rfl := Option.some.inj hmark
      rfl
  have hboundaries : boundaries ((marks Markers.standard body).filter Mark.isBoundary) =
      boundaries (marks Markers.standard body) := by
    rw [boundaries, List.filterMap_filter]
    congr 1
    funext mark
    cases mark <;> rfl
  rw [← hboundaries, hfilter, boundaries, List.filterMap_map]
  exact List.filterMap_some

theorem loose_not_mem_marks {body lead : Text} {entries : List (Text × Text)}
    (hcut : Cut IsContent body lead entries) : .loose ∉ marks Markers.standard body := by
  have hfilter : (marks Markers.standard body).filter (fun _ => true) =
      (boundariesFrom lead.byteLength entries).map Mark.boundary := by
    refine filter_marks_of_cut (fun _ => true) ?_ (fun _ => rfl) hcut
    intro before after hcontent mark hmark
    obtain ⟨huntagged, hloose⟩ := isContent_iff.mp hcontent
    rw [(markOf_of_isUntagged huntagged).resolve_right hloose] at hmark
    contradiction
  rw [List.filter_eq_self.mpr fun _ _ => rfl] at hfilter
  rw [hfilter]
  simp

private theorem eq_of_byteLength_eq {left right left' right' : Text}
    (hsplit : left ++ right = left' ++ right') (hlength : left.byteLength = left'.byteLength) :
    left = left' ∧ right = right' := by
  obtain ⟨middle, rfl⟩ := Text.prefix_of_byteLength_le hsplit (Nat.le_of_eq hlength)
  rw [Text.byteLength_append] at hlength
  obtain rfl : middle = [] := Text.eq_nil_of_byteLength (by omega)
  rw [List.append_nil] at hsplit ⊢
  exact ⟨rfl, List.append_cancel_left hsplit⟩

private theorem eq_of_boundariesFrom_eq (offset : Nat) {lead lead' : Text}
    {entries entries' : List (Text × Text)}
    (hbody : lead ++ compose entries = lead' ++ compose entries')
    (hboundaries : boundariesFrom (offset + lead.byteLength) entries =
      boundariesFrom (offset + lead'.byteLength) entries') :
    lead = lead' ∧ entries = entries' := by
  induction entries generalizing offset lead lead' entries' with
  | nil =>
      cases entries' with
      | nil => exact ⟨List.append_cancel_right hbody, rfl⟩
      | cons entry' rest' => contradiction
  | cons entry rest ih =>
      cases entries' with
      | nil => contradiction
      | cons entry' rest' =>
          obtain ⟨name, text⟩ := entry
          obtain ⟨name', text'⟩ := entry'
          obtain ⟨hfirst, hlater⟩ := List.cons.inj hboundaries
          simp only [Boundary.mk.injEq] at hfirst
          obtain ⟨rfl, hcompose⟩ := eq_of_byteLength_eq hbody (by omega)
          have hsegments : name ++ ':' :: (text ++ compose rest) =
              name' ++ ':' :: (text' ++ compose rest') := by
            simpa [segment] using hcompose
          obtain ⟨rfl, htexts⟩ := eq_of_byteLength_eq hsegments (by omega)
          obtain ⟨-, htexts⟩ := List.cons.inj htexts
          have hoffsets : ∀ text : Text,
              offset + lead.byteLength + (segment (name, text)).byteLength =
                offset + lead.byteLength + 1 + name.byteLength + 1 + text.byteLength := by
            intro text
            rw [byteLength_segment]
            omega
          rw [hoffsets, hoffsets] at hlater
          obtain ⟨rfl, rfl⟩ := ih _ htexts hlater
          exact ⟨rfl, rfl⟩

theorem Cut.unique {body lead lead' : Text} {entries entries' : List (Text × Text)}
    (hcut : Cut IsUntagged body lead entries) (hcut' : Cut IsUntagged body lead' entries') :
    lead' = lead ∧ entries' = entries := by
  apply eq_of_boundariesFrom_eq 0 (hcut'.body_eq.symm.trans hcut.body_eq)
  rw [Nat.zero_add, Nat.zero_add, ← boundaries_of_cut hcut', ← boundaries_of_cut hcut]

def contentsOf (lead : Text) (entries : List (Text × Text)) : List Text :=
  ((lead :: entries.map Prod.snd).map fun text =>
    (Text.trim text).replace ['\\', '@'] ['@']).filter (· ≠ [])

theorem wellFormed_iff {body lead : Text} {entries : List (Text × Text)}
    (hcut : Cut IsUntagged body lead entries) :
    WellFormed body lead entries ↔
      clean Markers.standard lead = [] ∧ .loose ∉ marks Markers.standard body ∧
        ∀ entry ∈ entries, clean Markers.standard entry.2 ≠ [] := by
  simp only [clean_eq_nil_iff, ne_eq, Bool.not_eq_true]
  constructor
  · intro hformed
    exact ⟨hformed.lead_blank, loose_not_mem_marks hformed.toCut, hformed.text_nonblank⟩
  · rintro ⟨hlead, hloose, htexts⟩
    refine ⟨hcut.strengthen ?_, hlead, htexts⟩
    intro before after hbody huntagged
    refine isContent_iff.mpr ⟨huntagged, fun hmark => ?_⟩
    exact hloose (mem_marks_iff.mpr ⟨before, after, hbody, hmark⟩)

private theorem tagBody_of_wellFormed {body lead : Text} {entries : List (Text × Text)}
    (hformed : WellFormed body lead entries) :
    tagBody Markers.standard body =
      .ok (FieldMap.ofList (entries.map fun entry =>
        Field.classify (Text.lower entry.1) (clean Markers.standard entry.2))) := by
  have hcut := hformed.toCut.isUntagged
  have hboundaries := boundaries_of_cut hcut
  have haccepted := (wellFormed_iff hcut).mp hformed
  rw [hcut.body_eq] at hboundaries haccepted ⊢
  rw [tagBody_of_boundaries hboundaries, if_pos haccepted]

private theorem tagBody_of_not_wellFormed {body lead : Text} {entries : List (Text × Text)}
    (hcut : Cut IsUntagged body lead entries) (hformed : ¬ WellFormed body lead entries) :
    tagBody Markers.standard body =
      .error (.misaligned
        ((marks Markers.standard body).map (Mark.label Markers.standard))
        (contentsOf lead entries)) := by
  have hboundaries := boundaries_of_cut hcut
  rw [wellFormed_iff hcut] at hformed
  rw [hcut.body_eq] at hboundaries hformed ⊢
  rw [tagBody_of_boundaries hboundaries, if_neg hformed]
  rfl

/-- Tagging accepts a body when its cut is well formed, and gives its entries as fields.
Otherwise it lists the tags and the loose tag characters of the body in order, and what is left
of the lead and the texts of its cut. -/
theorem tagBody_follows_grammar (body : Text) :
    ((∃ map, tagBody Markers.standard body = .ok map) ↔
      ∃ lead entries, WellFormed body lead entries) ∧
    (∀ lead entries, WellFormed body lead entries →
      (∀ lead' entries', WellFormed body lead' entries' → lead' = lead ∧ entries' = entries) ∧
      tagBody Markers.standard body =
        .ok (FieldMap.ofList (entries.map fun entry =>
          Field.classify (Text.lower entry.1)
            ((Text.trim entry.2).replace ['\\', '@'] ['@'])))) ∧
    ((¬ ∃ lead entries, WellFormed body lead entries) →
      ∃ tags lead entries,
        tagBody Markers.standard body = .error (.misaligned tags (contentsOf lead entries)) ∧
        Listed body tags ∧ Cut IsUntagged body lead entries ∧
        ∀ lead' entries', Cut IsUntagged body lead' entries' →
          lead' = lead ∧ entries' = entries) := by
  obtain ⟨lead, entries, hcut⟩ := exists_cut body
  refine ⟨⟨?_, ?_⟩, ?_, ?_⟩
  · rintro ⟨map, hok⟩
    by_cases hformed : WellFormed body lead entries
    · exact ⟨lead, entries, hformed⟩
    · rw [tagBody_of_not_wellFormed hcut hformed] at hok
      contradiction
  · rintro ⟨lead, entries, hformed⟩
    exact ⟨_, tagBody_of_wellFormed hformed⟩
  · intro lead entries hformed
    refine ⟨?_, tagBody_of_wellFormed hformed⟩
    intro lead' entries' hformed'
    exact hformed.toCut.isUntagged.unique hformed'.toCut.isUntagged
  · intro hformed
    refine ⟨_, lead, entries, ?_, listed_marks body, hcut, ?_⟩
    · exact tagBody_of_not_wellFormed hcut fun h => hformed ⟨lead, entries, h⟩
    · exact fun lead' entries' hcut' => hcut.unique hcut'

end Docblock.Tagging
