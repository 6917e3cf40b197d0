import Docblock.Proofs.Tagging.Boundaries

namespace Docblock.Tagging

/-! Every mark of a body belongs to one of its tag characters, and what stands in front of that
character and behind it decides which mark it is. -/

def Escaped (before : Text) : Prop :=
  before.getLast? = some '\\'

def BeginsTag (after : Text) : Prop :=
  ∃ name rest, IsName name ∧ after = name ++ ':' :: rest

/-- A place next to a blank or at an end of the body. -/
def StandsFree (before after : Text) : Prop :=
  isFree before.getLast? = true ∨ isFree after.head? = true

/-- What a tag character that is no content is listed as: the tag that it begins, with the name
in lowercase, or itself. -/
inductive Labelled (before after : Text) : Text → Prop where
  | tag {name rest : Text} (hescaped : ¬ Escaped before) (hname : IsName name)
      (hafter : after = name ++ ':' :: rest) : Labelled before after ('@' :: name.lower)
  | loose (hescaped : ¬ Escaped before) (htag : ¬ BeginsTag after)
      (hfree : StandsFree before after) : Labelled before after ['@']

def Listed (body : Text) (labels : List Text) : Prop :=
  ∃ places : List (Nat × Text),
    (places.Pairwise fun first second => first.1 < second.1) ∧
    (∀ index label, (index, label) ∈ places ↔
      ∃ before after, body = before ++ '@' :: after ∧ before.length = index ∧
        Labelled before after label) ∧
    labels = places.map Prod.snd

def markOf (before after : Text) : Option Mark :=
  if before.getLast? = some '\\' then none
  else markAt Markers.standard before.getLast? before.byteLength after

theorem name?_eq_none_iff {after : Text} : name? ':' after = none ↔ ¬ BeginsTag after := by
  constructor
  · rintro hnone ⟨name, rest, hname, rfl⟩
    rw [name?_append hname] at hnone
    contradiction
  · intro htag
    rw [Option.eq_none_iff_forall_ne_some]
    intro name hsome
    obtain ⟨hname, rest, hafter⟩ := isName_of_name? hsome
    exact htag ⟨name, rest, hname, hafter⟩

theorem standsFree_iff {before after : Text} :
    StandsFree before after ↔ (isFree before.getLast? || isFree after.head?) = true := by
  rw [Bool.or_eq_true]
  rfl

theorem markOf_of_escaped {before : Text} (hescaped : Escaped before) (after : Text) :
    markOf before after = none :=
  if_pos hescaped

theorem markOf_of_not_escaped {before : Text} (hescaped : ¬ Escaped before) (after : Text) :
    markOf before after = markAt Markers.standard before.getLast? before.byteLength after :=
  if_neg hescaped

theorem markOf_of_isName {before name : Text} (hescaped : ¬ Escaped before) (hname : IsName name)
    (rest : Text) :
    markOf before (name ++ ':' :: rest) = some (.boundary ⟨name.lower, before.byteLength,
      before.byteLength + 1 + name.byteLength + 1⟩) := by
  rw [markOf_of_not_escaped hescaped, markAt, show Markers.standard.description = ':' from rfl,
    name?_append hname]
  rfl

theorem markOf_of_not_beginsTag {before after : Text} (hescaped : ¬ Escaped before)
    (htag : ¬ BeginsTag after) :
    markOf before after =
      if isFree before.getLast? || isFree after.head? then some .loose else none := by
  rw [markOf_of_not_escaped hescaped, markAt, show Markers.standard.description = ':' from rfl,
    name?_eq_none_iff.mpr htag]

theorem markOf_eq_loose_iff {before after : Text} :
    markOf before after = some .loose ↔
      ¬ Escaped before ∧ ¬ BeginsTag after ∧ StandsFree before after := by
  by_cases hescaped : Escaped before
  · simp [markOf_of_escaped hescaped, hescaped]
  · by_cases htag : BeginsTag after
    · obtain ⟨name, rest, hname, rfl⟩ := id htag
      simp [markOf_of_isName hescaped hname, htag]
    · rw [markOf_of_not_beginsTag hescaped htag, standsFree_iff]
      split
      · simp_all
      · simp_all

theorem labelled_iff {before after label : Text} :
    Labelled before after label ↔
      ∃ mark, markOf before after = some mark ∧ mark.label Markers.standard = label := by
  constructor
  · intro hlabelled
    cases hlabelled with
    | tag hescaped hname hafter =>
        subst hafter
        exact ⟨_, markOf_of_isName hescaped hname _, rfl⟩
    | loose hescaped htag hfree =>
        exact ⟨.loose, markOf_eq_loose_iff.mpr ⟨hescaped, htag, hfree⟩, rfl⟩
  · rintro ⟨mark, hmark, rfl⟩
    have hescaped : ¬ Escaped before := by
      intro hescaped
      rw [markOf_of_escaped hescaped] at hmark
      contradiction
    by_cases htag : BeginsTag after
    · obtain ⟨name, rest, hname, rfl⟩ := htag
      rw [markOf_of_isName hescaped hname] at hmark
      obtain rfl := Option.some.inj hmark
      exact .tag hescaped hname rfl
    · rw [markOf_of_not_beginsTag hescaped htag] at hmark
      split at hmark
      · rename_i hfree
        obtain rfl := Option.some.inj hmark
        exact .loose hescaped htag (standsFree_iff.mpr hfree)
      · contradiction

/-- The marks of a part of a body, which begins behind another part. -/
def marksBehind (before text : Text) : List Mark :=
  scan Markers.standard before.getLast? before.byteLength text

theorem marks_eq_marksBehind (body : Text) : marks Markers.standard body = marksBehind [] body :=
  rfl

theorem marksBehind_cons (before : Text) (c : Char) (rest : Text) :
    marksBehind before (c :: rest) =
      (if c = '@' then markOf before rest else none).toList ++
        marksBehind (before ++ [c]) rest := by
  have hrest : marksBehind (before ++ [c]) rest =
      scan Markers.standard (some c) (before.byteLength + c.utf8Size) rest := by
    simp [marksBehind]
  rw [marksBehind, scan, hrest]
  by_cases hc : c = '@'
  · subst hc
    by_cases hescaped : before.getLast? = some '\\'
    · rw [if_neg (fun hmark => hmark.2 hescaped), if_pos rfl, markOf_of_escaped hescaped]
      rfl
    · rw [if_pos ⟨rfl, hescaped⟩, if_pos rfl, markOf, if_neg hescaped]
  · rw [if_neg (fun hmark => hc hmark.1), if_neg hc]
    rfl

private theorem exists_split_cons_iff {c : Char} {rest : Text} {property : Text → Text → Prop} :
    (∃ left right, c :: rest = left ++ '@' :: right ∧ property left right) ↔
      (c = '@' ∧ property [] rest) ∨
        ∃ left right, rest = left ++ '@' :: right ∧ property (c :: left) right := by
  constructor
  · rintro ⟨left, right, hsplit, hproperty⟩
    cases left with
    | nil =>
        obtain ⟨rfl, rfl⟩ := List.cons.inj hsplit
        exact .inl ⟨rfl, hproperty⟩
    | cons d left =>
        obtain ⟨rfl, rfl⟩ := List.cons.inj hsplit
        exact .inr ⟨left, right, rfl, hproperty⟩
  · rintro (⟨rfl, hproperty⟩ | ⟨left, right, rfl, hproperty⟩)
    · exact ⟨[], rest, rfl, hproperty⟩
    · exact ⟨c :: left, right, rfl, hproperty⟩

theorem exists_places (before text : Text) :
    ∃ places : List (Nat × Mark),
      (places.Pairwise fun first second => first.1 < second.1) ∧
      (∀ index mark, (index, mark) ∈ places ↔
        ∃ left right, text = left ++ '@' :: right ∧ (before ++ left).length = index ∧
          markOf (before ++ left) right = some mark) ∧
      marksBehind before text = places.map Prod.snd := by
  induction text generalizing before with
  | nil => exact ⟨[], .nil, by simp, rfl⟩
  | cons c rest ih =>
      obtain ⟨places, hordered, hmem, hmarks⟩ := ih (before ++ [c])
      have hlater : ∀ place ∈ places, before.length < place.1 := by
        rintro ⟨index, mark⟩ hplace
        obtain ⟨left, right, -, hindex, -⟩ := (hmem index mark).mp hplace
        simp only [List.length_append, List.length_singleton] at hindex
        dsimp only
        omega
      have hsplits : ∀ index mark,
          (∃ left right, c :: rest = left ++ '@' :: right ∧ (before ++ left).length = index ∧
            markOf (before ++ left) right = some mark) ↔
          (c = '@' ∧ before.length = index ∧ markOf before rest = some mark) ∨
            (index, mark) ∈ places := by
        intro index mark
        rw [exists_split_cons_iff, hmem]
        simp only [List.append_nil, List.append_assoc, List.singleton_append]
      simp only [hsplits, marksBehind_cons]
      cases hmark : if c = '@' then markOf before rest else none with
      | none =>
          refine ⟨places, hordered, ?_, hmarks⟩
          intro index mark
          have hnot : ¬ (c = '@' ∧ before.length = index ∧ markOf before rest = some mark) := by
            rintro ⟨hc, -, hfound⟩
            rw [if_pos hc, hfound] at hmark
            contradiction
          exact (or_iff_right hnot).symm
      | some here =>
          obtain ⟨hc, hhere⟩ := Option.ite_none_right_eq_some.mp hmark
          refine ⟨(before.length, here) :: places, hordered.cons hlater, ?_, by simp [hmarks]⟩
          intro index mark
          rw [List.mem_cons, Prod.mk.injEq, hhere, Option.some.injEq, eq_comm (a := index),
            eq_comm (a := mark)]
          exact or_congr_left (and_iff_right hc).symm

theorem mem_marks_iff {body : Text} {mark : Mark} :
    mark ∈ marks Markers.standard body ↔
      ∃ before after, body = before ++ '@' :: after ∧ markOf before after = some mark := by
  obtain ⟨places, -, hmem, hmarks⟩ := exists_places [] body
  rw [marks_eq_marksBehind, hmarks, List.mem_map]
  constructor
  · rintro ⟨⟨index, mark⟩, hplace, rfl⟩
    obtain ⟨before, after, hbody, -, hmark⟩ := (hmem index mark).mp hplace
    exact ⟨before, after, hbody, hmark⟩
  · rintro ⟨before, after, hbody, hmark⟩
    exact ⟨(before.length, mark), (hmem _ _).mpr ⟨before, after, hbody, rfl, hmark⟩, rfl⟩

theorem listed_marks (body : Text) :
    Listed body ((marks Markers.standard body).map (Mark.label Markers.standard)) := by
  obtain ⟨places, hordered, hmem, hmarks⟩ := exists_places [] body
  refine ⟨places.map fun place => (place.1, place.2.label Markers.standard), ?_, ?_, ?_⟩
  · exact List.pairwise_map.mpr hordered
  · intro index label
    simp only [List.mem_map, Prod.mk.injEq, labelled_iff]
    constructor
    · rintro ⟨⟨index, mark⟩, hplace, rfl, rfl⟩
      obtain ⟨before, after, hbody, hindex, hmark⟩ := (hmem index mark).mp hplace
      exact ⟨before, after, hbody, hindex, mark, hmark, rfl⟩
    · rintro ⟨before, after, hbody, hindex, mark, hmark, rfl⟩
      exact ⟨(index, mark), (hmem index mark).mpr ⟨before, after, hbody, hindex, hmark⟩, rfl, rfl⟩
  · rw [marks_eq_marksBehind, hmarks, List.map_map, List.map_map]
    rfl

end Docblock.Tagging
