import Docblock.Proofs.Extraction.SourceOrder
import Docblock.Proofs.Span.Reindexing
import Docblock.Proofs.Token.Position

namespace Docblock

/-! What a region gives depends only on the text around its tokens, not on where they
stand. -/

/-- Every token of a row stands in another one, at another index and other offsets. -/
def Token.Relocated (index offset : Nat → Nat) (tokens tokens' : List Token) : Prop :=
  ∀ i token, tokens[i]? = some token → tokens'[index i]? = some (token.relocate offset)

namespace Span

/-- A region with the index of its end and the tokens of its markers. -/
structure Located (tokens : List Token) (span : Span) (close : Nat) (opening closing : Token) :
    Prop where
  close_eq : span.close = some close
  start_lt : span.start < close
  opening_eq : tokens[span.start]? = some opening
  closing_eq : tokens[close]? = some closing

namespace Located

variable {tokens tokens' : List Token} {span : Span} {close : Nat} {opening closing : Token}

theorem inner? (hlocated : Located tokens span close opening closing) :
    span.inner? tokens = some ⟨opening.range.stop, closing.range.start⟩ := by
  simp [Span.inner?, hlocated.opening_eq, hlocated.close_eq, hlocated.closing_eq]

theorem outer? (hlocated : Located tokens span close opening closing) :
    span.outer? tokens = some ⟨opening.range.start, closing.range.stop⟩ := by
  simp [Span.outer?, hlocated.opening_eq, hlocated.close_eq, hlocated.closing_eq]

theorem reindex {index offset : Nat → Nat} (hmono : StrictMono index)
    (hrelocated : Token.Relocated index offset tokens tokens')
    (hlocated : Located tokens span close opening closing) :
    Located tokens' (span.reindex index) (index close) (opening.relocate offset)
      (closing.relocate offset) where
  close_eq := by rw [Span.reindex, hlocated.close_eq, Option.map_some]
  start_lt := hmono hlocated.start_lt
  opening_eq := hrelocated _ _ hlocated.opening_eq
  closing_eq := hrelocated _ _ hlocated.closing_eq

end Located

theorem exists_located_of_mem_pair {language : Language} {markers : MarkerPair}
    {excluded : List Span} {tokens : List Token} {span : Span}
    (hmem : span ∈ pair language markers excluded tokens) :
    ∃ close opening closing, Located tokens span close opening closing := by
  obtain ⟨close, hclose, hlt, hbound⟩ := close_of_mem_pair hmem
  exact ⟨close, _, _, hclose, hlt, List.getElem?_eq_getElem (Nat.lt_trans hlt hbound),
    List.getElem?_eq_getElem hbound⟩

end Span

namespace Extraction

open Docblock.Span Docblock.Regions

theorem keptRanges_relocate (offset : Nat → Nat) (cursor stop : Nat) (cuts : List ByteRange) :
    keptRanges (offset cursor) (offset stop) (cuts.map (ByteRange.relocate offset)) =
      (keptRanges cursor stop cuts).map (ByteRange.relocate offset) := by
  induction cuts generalizing cursor with
  | nil => rfl
  | cons cut cuts ih => simp [keptRanges, ByteRange.relocate, ih]

/-- A range from the end of one token to the beginning of a later one. -/
structure Gap (tokens : List Token) (i j : Nat) (range : ByteRange) : Prop where
  lt : i < j
  exists_tokens : ∃ left right, tokens[i]? = some left ∧ tokens[j]? = some right ∧
    range = ⟨left.range.stop, right.range.start⟩

theorem gap_of_located {tokens : List Token} {span : Span} {close : Nat} {opening closing : Token}
    (hlocated : Located tokens span close opening closing) :
    Gap tokens span.start close ⟨opening.range.stop, closing.range.start⟩ :=
  ⟨hlocated.start_lt, opening, closing, hlocated.opening_eq, hlocated.closing_eq, rfl⟩

private theorem gap_of_mem_keptRanges {tokens : List Token} {snippets : List Span}
    {first last : Nat}
    {opening closing : Token}
    (hordered : snippets.Pairwise fun before after => before.closesBefore after = true)
    (hinside : ∀ snippet ∈ snippets, ∃ close left right,
      Located tokens snippet close left right ∧ first < snippet.start ∧ close < last)
    (hopening : tokens[first]? = some opening) (hclosing : tokens[last]? = some closing)
    (hlt : first < last) {range : ByteRange}
    (hmem : range ∈ keptRanges opening.range.stop closing.range.start
      (snippets.filterMap fun snippet => snippet.outer? tokens)) :
    ∃ i j, Gap tokens i j range ∧ first ≤ i ∧ j ≤ last ∧
      ∀ snippet ∈ snippets, ∀ close ∈ snippet.close, close ≤ i ∨ j ≤ snippet.start := by
  induction snippets generalizing first opening with
  | nil =>
      obtain rfl : range = ⟨opening.range.stop, closing.range.start⟩ := by
        simpa [keptRanges] using hmem
      exact ⟨first, last, ⟨hlt, opening, closing, hopening, hclosing, rfl⟩, Nat.le_refl _,
        Nat.le_refl _, by simp⟩
  | cons snippet rest ih =>
      rw [List.forall_mem_cons] at hinside
      obtain ⟨hbefore, hrest⟩ := List.pairwise_cons.mp hordered
      obtain ⟨⟨close, left, right, hsnippet, hfirst, hlast⟩, hinside⟩ := hinside
      have hlater : ∀ later ∈ rest, close < later.start := fun later hmem =>
        (closesBefore_iff hsnippet.close_eq).mp (hbefore later hmem)
      rw [List.filterMap_cons_some hsnippet.outer?, keptRanges, List.mem_cons] at hmem
      have hstart := hsnippet.start_lt
      rcases hmem with rfl | hmem
      · -- The range in front of this snippet, and of all later ones.
        refine ⟨first, snippet.start, ⟨hfirst, opening, left, hopening, hsnippet.opening_eq, rfl⟩,
          Nat.le_refl _, by omega, ?_⟩
        rw [List.forall_mem_cons]
        refine ⟨fun _ _ => .inr (Nat.le_refl _), fun later hmem _ _ => .inr ?_⟩
        have hafter := hlater later hmem
        omega
      · -- Behind the snippet its end marker is what the next range begins at.
        have hbehind : ∀ later ∈ rest, ∃ laterClose left right,
            Located tokens later laterClose left right ∧ close < later.start ∧
              laterClose < last := by
          intro later hmem
          obtain ⟨laterClose, left, right, hlocated, -, hlaterLast⟩ := hinside later hmem
          exact ⟨laterClose, left, right, hlocated, hlater later hmem, hlaterLast⟩
        obtain ⟨i, j, hgap, hle, hge, hsides⟩ := ih hrest hbehind hsnippet.closing_eq hlast hmem
        refine ⟨i, j, hgap, by omega, hge, ?_⟩
        rw [List.forall_mem_cons]
        refine ⟨fun other hother => .inl ?_, hsides⟩
        obtain rfl : close = other := Option.some.inj (hsnippet.close_eq.symm.trans hother)
        exact hle

section Bodies

variable {language : Language} {markers : Markers} {tokens : List Token}

theorem exists_located_of_mem_merged {span : Span}
    (hmem : span ∈ (find language markers tokens).merged) :
    ∃ close opening closing, Located tokens span close opening closing := by
  rcases mem_merged.mp hmem with hdoc | hsnippet
  · exact exists_located_of_mem_pair hdoc
  · exact exists_located_of_mem_pair hsnippet

theorem bodyRanges_eq_keptRanges {doc : Span} {close : Nat} {opening closing : Token}
    (hlocated : Located tokens doc close opening closing) :
    bodyRanges tokens (find language markers tokens).merged doc =
      keptRanges opening.range.stop closing.range.start
        (((find language markers tokens).snippets.filter doc.encloses).filterMap fun snippet =>
          snippet.outer? tokens) := by
  rw [bodyRanges, hlocated.inner?, nested_merged (find_wellNested language markers tokens)]

theorem exists_located_of_encloses {doc : Span} {docClose : Nat} {opening closing : Token}
    (hlocated : Located tokens doc docClose opening closing) :
    ∀ snippet ∈ (find language markers tokens).snippets.filter doc.encloses,
      ∃ close left right, Located tokens snippet close left right ∧ doc.start < snippet.start ∧
        close < docClose := by
  intro snippet hsnippet
  obtain ⟨hsnippet, hencloses⟩ := List.mem_filter.mp hsnippet
  obtain ⟨close, left, right, hlocated'⟩ := exists_located_of_mem_pair hsnippet
  obtain ⟨hstart, hend⟩ := (encloses_iff hlocated.close_eq hlocated'.close_eq).mp hencloses
  exact ⟨close, left, right, hlocated', hstart, hend⟩

/-- No part of a body reaches over a snippet. -/
theorem gap_of_mem_bodyRanges {doc : Span} (hdoc : doc ∈ (find language markers tokens).docs)
    {range : ByteRange}
    (hmem : range ∈ bodyRanges tokens (find language markers tokens).merged doc) :
    ∃ i j, Gap tokens i j range ∧
      ∀ snippet ∈ (find language markers tokens).snippets, ∀ close ∈ snippet.close,
        close ≤ i ∨ j ≤ snippet.start := by
  have hnested := find_wellNested language markers tokens
  obtain ⟨docClose, opening, closing, hlocated⟩ := exists_located_of_mem_pair hdoc
  rw [bodyRanges_eq_keptRanges hlocated] at hmem
  obtain ⟨i, j, hgap, hle, hge, hsides⟩ :=
    gap_of_mem_keptRanges (hnested.snippets_ordered.filter _) (exists_located_of_encloses hlocated)
      hlocated.opening_eq hlocated.closing_eq hlocated.start_lt hmem
  refine ⟨i, j, hgap, ?_⟩
  intro snippet hsnippet close hclose
  rcases hnested.apart_or_encloses hdoc hsnippet with hbefore | hafter | hencloses
  · rw [closesBefore_iff hlocated.close_eq] at hbefore
    exact .inr (by omega)
  · rw [closesBefore_iff hclose] at hafter
    exact .inl (by omega)
  · exact hsides snippet (List.mem_filter.mpr ⟨hsnippet, hencloses⟩) close hclose

variable {tokens' : List Token} {text text' : Text} {index offset : Nat → Nat}

private theorem between_reindex (hmono : StrictMono index)
    (hrelocated : Token.Relocated index offset tokens tokens') {span : Span}
    (hspan : span ∈ (find language markers tokens).merged)
    (hslice : ∀ i j range, Gap tokens i j range →
      text'.slice (range.relocate offset) = text.slice range) :
    between text' tokens' (span.reindex index) = between text tokens span := by
  obtain ⟨close, opening, closing, hlocated⟩ := exists_located_of_mem_merged hspan
  rw [between, between, (hlocated.reindex hmono hrelocated).inner?, hlocated.inner?]
  exact hslice _ _ _ (gap_of_located hlocated)

theorem bodyOf_reindex (hmono : StrictMono index)
    (hrelocated : Token.Relocated index offset tokens tokens') {doc : Span}
    (hdoc : doc ∈ (find language markers tokens).docs)
    (hsnippets : (find language markers tokens').snippets.filter (doc.reindex index).encloses =
      ((find language markers tokens).snippets.filter doc.encloses).map (reindex index))
    (hslice : ∀ range ∈ bodyRanges tokens (find language markers tokens).merged doc,
      text'.slice (range.relocate offset) = text.slice range) :
    bodyOf language markers text' tokens' (find language markers tokens').merged
        (doc.reindex index) =
      bodyOf language markers text tokens (find language markers tokens).merged doc := by
  obtain ⟨close, opening, closing, hlocated⟩ := exists_located_of_mem_pair hdoc
  have hcuts : ((find language markers tokens').snippets.filter
      (doc.reindex index).encloses).filterMap (fun snippet => snippet.outer? tokens') =
        (((find language markers tokens).snippets.filter doc.encloses).filterMap
          fun snippet => snippet.outer? tokens).map (ByteRange.relocate offset) := by
    rw [hsnippets, List.filterMap_map, List.map_filterMap]
    refine List.filterMap_congr fun snippet hsnippet => ?_
    obtain ⟨_, _, _, hlocated'⟩ := exists_located_of_mem_pair (List.mem_of_mem_filter hsnippet)
    rw [Function.comp_apply, (hlocated'.reindex hmono hrelocated).outer?, hlocated'.outer?]
    rfl
  have hranges : bodyRanges tokens' (find language markers tokens').merged (doc.reindex index) =
      (bodyRanges tokens (find language markers tokens).merged doc).map
        (ByteRange.relocate offset) := by
    rw [bodyRanges_eq_keptRanges (hlocated.reindex hmono hrelocated),
      bodyRanges_eq_keptRanges hlocated, hcuts]
    exact keptRanges_relocate offset _ _ _
  rw [bodyOf, bodyOf, hranges, List.flatMap_map]
  congr 1
  exact List.flatMap_congr hslice

theorem ownPieces_reindex (hmono : StrictMono index)
    (hrelocated : Token.Relocated index offset tokens tokens') {span : Span}
    (hspan : span ∈ (find language markers tokens).merged)
    (hsnippets : (find language markers tokens').snippets.filter (span.reindex index).encloses =
      ((find language markers tokens).snippets.filter span.encloses).map (reindex index))
    (hslice : ∀ i j range, Gap tokens i j range →
      text'.slice (range.relocate offset) = text.slice range) :
    ownPieces language markers text' tokens' (find language markers tokens').merged
        (span.reindex index) =
      ownPieces language markers text tokens (find language markers tokens).merged span := by
  have hnested := find_wellNested language markers tokens
  cases hkind : span.kind with
  | snippet =>
      have hkind' : (span.reindex index).kind = .snippet := hkind
      rw [ownPieces_snippet hkind', ownPieces_snippet hkind,
        between_reindex hmono hrelocated hspan hslice]
  | doc =>
      have hkind' : (span.reindex index).kind = .doc := hkind
      have hdoc := hnested.mem_docs_of_kind hspan hkind
      have hbody : bodyOf language markers text' tokens' (find language markers tokens').merged
          (span.reindex index) =
            bodyOf language markers text tokens (find language markers tokens).merged span := by
        refine bodyOf_reindex hmono hrelocated hdoc hsnippets fun range hrange => ?_
        obtain ⟨i, j, hgap, -⟩ := gap_of_mem_bodyRanges hdoc hrange
        exact hslice i j range hgap
      rw [ownPieces_doc hkind', ownPieces_doc hkind, hbody]

end Bodies

end Extraction
end Docblock
