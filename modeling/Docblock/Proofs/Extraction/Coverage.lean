import Docblock.Proofs.Extraction.Relocation
import Docblock.Proofs.Text.Tiling

namespace Docblock

/-! What is cut from a text: ranges in bounds that split no character, and between the markers
of a documentation region every byte once. -/

namespace Token

variable {text : Text}

theorem stop_lt_start {i j : Nat} {left right : Token} (hlt : i < j)
    (hleft : (all text)[i]? = some left) (hright : (all text)[j]? = some right) :
    left.range.stop < right.range.start := by
  obtain ⟨hi, rfl⟩ := List.getElem?_eq_some_iff.mp hleft
  obtain ⟨hj, rfl⟩ := List.getElem?_eq_some_iff.mp hright
  exact List.pairwise_iff_getElem.mp (pairwise_scan 0 text) i j hi hj hlt

end Token

namespace Span

open Docblock.ByteRange

/-- The start marker of a region, the text inside and the end marker. -/
def parts (tokens : List Token) (span : Span) : List ByteRange :=
  (tokens[span.start]?.map Token.range).toList ++
    ((span.inner? tokens).toList ++
      ((span.close.bind fun close => tokens[close]?).map Token.range).toList)

namespace Located

variable {text : Text} {span : Span} {close : Nat} {opening closing : Token}

theorem tiles_parts (hlocated : Located (Token.all text) span close opening closing) :
    Tiles opening.range.start closing.range.stop (span.parts (Token.all text)) := by
  have hparts : span.parts (Token.all text) =
      [opening.range, ⟨opening.range.stop, closing.range.start⟩, closing.range] := by
    rw [parts, hlocated.inner?, hlocated.opening_eq, hlocated.close_eq, Option.bind_some,
      hlocated.closing_eq]
    rfl
  have hapart := Token.stop_lt_start hlocated.start_lt hlocated.opening_eq hlocated.closing_eq
  have hopening := Token.start_le_stop_of_mem_scan (List.mem_of_getElem? hlocated.opening_eq)
  have hclosing := Token.start_le_stop_of_mem_scan (List.mem_of_getElem? hlocated.closing_eq)
  rw [hparts]
  exact .cons hopening (.cons (Nat.le_of_lt hapart) (.cons hclosing (.nil _)))

theorem fits_outer (hlocated : Located (Token.all text) span close opening closing) :
    Fits text ⟨opening.range.start, closing.range.stop⟩ :=
  fits_of_boundaries hlocated.tiles_parts.le
    (Token.isBoundary_start (List.mem_of_getElem? hlocated.opening_eq))
    (Token.isBoundary_stop (List.mem_of_getElem? hlocated.closing_eq))

end Located
end Span

namespace Extraction

open Docblock.Span Docblock.Regions Docblock.ByteRange

theorem fits_of_gap {text : Text} {i j : Nat} {range : ByteRange}
    (hgap : Gap (Token.all text) i j range) : range.Fits text := by
  obtain ⟨hlt, left, right, hleft, hright, rfl⟩ := hgap
  exact fits_of_boundaries (Nat.le_of_lt (Token.stop_lt_start hlt hleft hright))
    (Token.isBoundary_stop (List.mem_of_getElem? hleft))
    (Token.isBoundary_start (List.mem_of_getElem? hright))

/-- Two lists in turn, the first one first. -/
def alternate {α : Type} : List α → List α → List α
  | [], cuts => cuts
  | kept :: rest, [] => kept :: rest
  | kept :: rest, cut :: cuts => kept :: cut :: alternate rest cuts

theorem alternate_perm {α : Type} (kept cuts : List α) :
    (alternate kept cuts).Perm (kept ++ cuts) := by
  induction kept generalizing cuts with
  | nil => exact .refl cuts
  | cons first rest ih =>
      cases cuts with
      | nil => simp [alternate]
      | cons cut cuts =>
          have hrest : (cut :: alternate rest cuts).Perm (rest ++ cut :: cuts) :=
            ((ih cuts).cons cut).trans List.perm_middle.symm
          exact hrest.cons first

theorem length_keptRanges (cursor stop : Nat) (cuts : List ByteRange) :
    (keptRanges cursor stop cuts).length = cuts.length + 1 := by
  induction cuts generalizing cursor with
  | nil => rfl
  | cons cut cuts ih => simp [keptRanges, ih]

variable {text : Text} {snippets : List Span}

theorem tiles_alternate_keptRanges {first last : Nat} {opening closing : Token}
    (hordered : snippets.Pairwise fun before after => before.closesBefore after = true)
    (hinside : ∀ snippet ∈ snippets, ∃ close left right,
      Located (Token.all text) snippet close left right ∧ first < snippet.start ∧ close < last)
    (hopening : (Token.all text)[first]? = some opening)
    (hclosing : (Token.all text)[last]? = some closing) (hlt : first < last) :
    Tiles opening.range.stop closing.range.start
      (alternate
        (keptRanges opening.range.stop closing.range.start
          (snippets.filterMap fun snippet => snippet.outer? (Token.all text)))
        (snippets.filterMap fun snippet => snippet.outer? (Token.all text))) := by
  induction snippets generalizing first opening with
  | nil =>
      have hapart := Token.stop_lt_start hlt hopening hclosing
      exact .cons (Nat.le_of_lt hapart) (.nil _)
  | cons snippet rest ih =>
      rw [List.forall_mem_cons] at hinside
      obtain ⟨hbefore, hrest⟩ := List.pairwise_cons.mp hordered
      obtain ⟨⟨close, left, right, hsnippet, hfirst, hlast⟩, hinside⟩ := hinside
      have hbehind : ∀ later ∈ rest, ∃ laterClose left right,
          Located (Token.all text) later laterClose left right ∧ close < later.start ∧
            laterClose < last := by
        intro later hmem
        obtain ⟨laterClose, left, right, hlocated, -, hlaterLast⟩ := hinside later hmem
        exact ⟨laterClose, left, right, hlocated,
          (closesBefore_iff hsnippet.close_eq).mp (hbefore later hmem), hlaterLast⟩
      have hapart := Token.stop_lt_start hfirst hopening hsnippet.opening_eq
      rw [List.filterMap_cons_some hsnippet.outer?, keptRanges, alternate]
      refine .cons (Nat.le_of_lt hapart) (.cons hsnippet.tiles_parts.le ?_)
      exact ih hrest hbehind hsnippet.closing_eq hlast

theorem map_outer?_eq
    (hlocated : ∀ snippet ∈ snippets, ∃ close left right,
      Located (Token.all text) snippet close left right) :
    snippets.map (outer? (Token.all text)) =
      (snippets.filterMap (outer? (Token.all text))).map some := by
  induction snippets with
  | nil => rfl
  | cons snippet rest ih =>
      rw [List.forall_mem_cons] at hlocated
      obtain ⟨⟨close, left, right, hsnippet⟩, hrest⟩ := hlocated
      rw [List.filterMap_cons_some hsnippet.outer?, List.map_cons, List.map_cons, ih hrest,
        hsnippet.outer?]

theorem countP_parts
    (hlocated : ∀ snippet ∈ snippets, ∃ close left right,
      Located (Token.all text) snippet close left right) (offset : Nat) :
    (snippets.flatMap (parts (Token.all text))).countP (·.holds offset) =
      (snippets.filterMap (outer? (Token.all text))).countP (·.holds offset) := by
  induction snippets with
  | nil => rfl
  | cons snippet rest ih =>
      rw [List.forall_mem_cons] at hlocated
      obtain ⟨⟨close, left, right, hsnippet⟩, hrest⟩ := hlocated
      have hwhole : Tiles left.range.start right.range.stop
          [⟨left.range.start, right.range.stop⟩] :=
        .cons hsnippet.tiles_parts.le (.nil _)
      rw [List.flatMap_cons, List.countP_append, ih hrest, hsnippet.tiles_parts.countP_holds,
        ← hwhole.countP_holds, ← List.countP_append, List.filterMap_cons_some hsnippet.outer?]
      rfl

variable {language : Language} {markers : Markers}

theorem fits_inner? {span : Span} (hmem : span ∈ (find language markers (Token.all text)).merged) :
    ∃ range, span.inner? (Token.all text) = some range ∧ range.Fits text := by
  obtain ⟨close, opening, closing, hlocated⟩ := exists_located_of_mem_merged hmem
  exact ⟨_, hlocated.inner?, fits_of_gap (gap_of_located hlocated)⟩

theorem exists_located_of_mem_nested {doc : Span} :
    ∀ snippet ∈ nested (find language markers (Token.all text)).merged doc,
      ∃ close left right, Located (Token.all text) snippet close left right := by
  intro snippet hsnippet
  exact exists_located_of_mem_merged (mem_nested.mp hsnippet).1

private theorem fits_of_mem_bodyRanges {doc : Span}
    (hdoc : doc ∈ (find language markers (Token.all text)).docs) :
    ∀ range ∈ bodyRanges (Token.all text) (find language markers (Token.all text)).merged doc,
      range.Fits text := by
  intro range hrange
  obtain ⟨i, j, hgap, -⟩ := gap_of_mem_bodyRanges hdoc hrange
  exact fits_of_gap hgap

private theorem fits_of_mem_cuts {doc : Span} {range : ByteRange}
    (hrange : range ∈ (nested (find language markers (Token.all text)).merged doc).filterMap
      (outer? (Token.all text))) : range.Fits text := by
  obtain ⟨snippet, hsnippet, houter⟩ := List.mem_filterMap.mp hrange
  obtain ⟨close, left, right, hlocated⟩ := exists_located_of_mem_nested snippet hsnippet
  obtain rfl := Option.some.inj (hlocated.outer?.symm.trans houter)
  exact hlocated.fits_outer

private theorem tiles_bodyRanges {doc : Span} {close : Nat} {opening closing : Token}
    (hlocated : Located (Token.all text) doc close opening closing) :
    Tiles opening.range.stop closing.range.start
      (alternate
        (bodyRanges (Token.all text) (find language markers (Token.all text)).merged doc)
        ((nested (find language markers (Token.all text)).merged doc).filterMap
          (outer? (Token.all text)))) := by
  have hnested := find_wellNested language markers (Token.all text)
  rw [bodyRanges_eq_keptRanges hlocated, nested_merged hnested]
  exact tiles_alternate_keptRanges (hnested.snippets_ordered.filter _)
    (exists_located_of_encloses hlocated) hlocated.opening_eq hlocated.closing_eq hlocated.start_lt

/-- Extraction cuts along the characters of the text and in bounds.  Between the markers of a
documentation region, what it keeps for the body and what it cuts out for the snippets inside
make up the text in turn, and each byte is in one part of the body, or in the text or a marker
of one snippet. -/
theorem cuts_fit_and_share_bytes (language : Language) (markers : Markers) (text : Text) :
    let tokens := Token.all text
    let regions := find language markers tokens
    let inside := fun doc : Span =>
      regions.merged.filter fun span => span.kind = .snippet && doc.encloses span
    (∀ span ∈ regions.merged, ∃ range, span.inner? tokens = some range ∧ range.Fits text) ∧
      ∀ doc ∈ regions.docs,
        (∀ range ∈ bodyRanges tokens regions.merged doc, range.Fits text) ∧
          ∃ inner cuts, doc.inner? tokens = some inner ∧
            (inside doc).map (outer? tokens) = cuts.map some ∧
            (bodyRanges tokens regions.merged doc).length = cuts.length + 1 ∧
            (alternate (bodyRanges tokens regions.merged doc) cuts).flatMap text.slice =
              text.slice inner ∧
            ∀ offset, inner.holds offset = true →
              (bodyRanges tokens regions.merged doc ++
                (inside doc).flatMap (parts tokens)).countP (·.holds offset) = 1 := by
  intro tokens regions inside
  refine ⟨fun span hmem => fits_inner? hmem, ?_⟩
  intro doc hdoc
  obtain ⟨close, opening, closing, hlocated⟩ := exists_located_of_mem_pair hdoc
  have hfits := fits_of_mem_bodyRanges hdoc
  have htiles : Tiles opening.range.stop closing.range.start
      (alternate (bodyRanges tokens regions.merged doc)
        ((nested regions.merged doc).filterMap (outer? tokens))) :=
    tiles_bodyRanges hlocated
  have hperm := alternate_perm (bodyRanges tokens regions.merged doc)
    ((nested regions.merged doc).filterMap (outer? tokens))
  refine ⟨hfits, _, _, hlocated.inner?, map_outer?_eq exists_located_of_mem_nested, ?_, ?_, ?_⟩
  · rw [bodyRanges, hlocated.inner?]
    exact length_keptRanges _ _ _
  · apply htiles.flatMap_slice
    intro range hrange
    rcases List.mem_append.mp (hperm.mem_iff.mp hrange) with hkept | hcut
    · exact hfits range hkept
    · exact fits_of_mem_cuts hcut
  · intro offset hholds
    simp only [holds, Bool.and_eq_true, decide_eq_true_eq] at hholds
    have hinside : inside doc = nested regions.merged doc := rfl
    rw [List.countP_append, hinside, countP_parts exists_located_of_mem_nested,
      ← List.countP_append, ← hperm.countP_eq, htiles.countP_holds, if_pos hholds]

end Extraction
end Docblock
