import Docblock.Proofs.Span.Nesting
import Docblock.RawBlock
import Mathlib.Data.List.Basic

namespace Docblock

/-! Extraction goes through the merged regions and takes the snippets of a documentation
region along with it.  That is the order in which the regions start. -/

namespace Regions

def inOrder (regions : Regions) : List Span :=
  (regions.docs ++ regions.snippets).mergeSort fun first second => first.start ≤ second.start

theorem inOrder_perm (regions : Regions) :
    regions.inOrder.Perm (regions.docs ++ regions.snippets) :=
  List.mergeSort_perm _ _

theorem merged_perm (regions : Regions) :
    regions.merged.Perm (regions.docs ++ regions.snippets) :=
  Span.merge_perm regions.docs regions.snippets

theorem mem_merged {regions : Regions} {span : Span} :
    span ∈ regions.merged ↔ span ∈ regions.docs ∨ span ∈ regions.snippets :=
  regions.merged_perm.mem_iff.trans List.mem_append

namespace WellNested

open Docblock.Span

variable {regions : Regions}

theorem closed (hnested : regions.WellNested) {span : Span} (hmem : span ∈ regions.merged) :
    ∃ close, span.close = some close ∧ span.start < close := by
  rcases mem_merged.mp hmem with hdoc | hsnippet
  · obtain ⟨close, hclose, hlt, -⟩ := (hnested.doc_paired span hdoc).closed
    exact ⟨close, hclose, hlt⟩
  · obtain ⟨close, hclose, hlt, -⟩ := (hnested.snippet_paired span hsnippet).closed
    exact ⟨close, hclose, hlt⟩

theorem mem_docs_of_kind (hnested : regions.WellNested) {span : Span}
    (hmem : span ∈ regions.merged) (hkind : span.kind = .doc) : span ∈ regions.docs := by
  rw [← hnested.filter_doc_merged, List.mem_filter]
  exact ⟨hmem, by simpa using hkind⟩

theorem mem_snippets_of_kind (hnested : regions.WellNested) {span : Span}
    (hmem : span ∈ regions.merged) (hkind : span.kind = .snippet) :
    span ∈ regions.snippets := by
  rw [← hnested.filter_snippet_merged, List.mem_filter]
  exact ⟨hmem, by simpa using hkind⟩

theorem docs_trichotomy (hnested : regions.WellNested) {first second : Span}
    (hfirst : first ∈ regions.docs) (hsecond : second ∈ regions.docs) :
    first = second ∨ first.closesBefore second = true ∨ second.closesBefore first = true := by
  refine List.Pairwise.forall_of_forall_of_flip
    (R := fun first second => first = second ∨ first.closesBefore second = true ∨
      second.closesBefore first = true) ?_ ?_ ?_ hfirst hsecond
  · intro doc _
    exact .inl rfl
  · exact hnested.docs_ordered.imp fun hbefore => .inr (.inl hbefore)
  · exact hnested.docs_ordered.imp fun hbefore => .inr (.inr hbefore)

theorem closesBefore_or_encloses (hnested : regions.WellNested) {doc span : Span}
    (hdoc : doc ∈ regions.docs) (hspan : span ∈ regions.merged)
    (hlt : doc.start < span.start) :
    doc.closesBefore span = true ∨ doc.encloses span = true := by
  obtain ⟨close, hclose, hspanLt⟩ := hnested.closed hspan
  have hafter : ¬ span.closesBefore doc = true := by
    rw [closesBefore_iff hclose]
    omega
  rcases mem_merged.mp hspan with hspan | hspan
  · rcases hnested.docs_trichotomy hdoc hspan with rfl | hbefore | hbefore
    · omega
    · exact .inl hbefore
    · contradiction
  · rcases hnested.apart_or_encloses hdoc hspan with hbefore | hbefore | hencloses
    · exact .inl hbefore
    · contradiction
    · exact .inr hencloses

theorem start_lt_of_closesBefore (hnested : regions.WellNested) {first second : Span}
    (hfirst : first ∈ regions.merged) (hbefore : first.closesBefore second = true) :
    first.start < second.start := by
  obtain ⟨close, hclose, hlt⟩ := hnested.closed hfirst
  exact Nat.lt_trans hlt ((closesBefore_iff hclose).mp hbefore)

theorem start_lt_of_encloses (hnested : regions.WellNested) {outer inner : Span}
    (houter : outer ∈ regions.merged) (hinner : inner ∈ regions.merged)
    (hencloses : outer.encloses inner = true) : outer.start < inner.start := by
  obtain ⟨outerClose, houterClose, -⟩ := hnested.closed houter
  obtain ⟨innerClose, hinnerClose, -⟩ := hnested.closed hinner
  exact ((encloses_iff houterClose hinnerClose).mp hencloses).1

theorem start_le_of_encloses (hnested : regions.WellNested) {doc other span : Span}
    (hdoc : doc ∈ regions.docs) (hother : other ∈ regions.docs)
    (hspan : span ∈ regions.merged) (hencloses : doc.encloses span = true)
    (hlt : other.start < span.start) : other.start ≤ doc.start := by
  obtain ⟨docClose, hdocClose, -⟩ := hnested.closed (mem_merged.mpr (.inl hdoc))
  obtain ⟨spanClose, hspanClose, hspanLt⟩ := hnested.closed hspan
  have hinside := (encloses_iff hdocClose hspanClose).mp hencloses
  rcases hnested.docs_trichotomy hdoc hother with rfl | hbefore | hbefore
  · exact Nat.le_refl _
  · rw [closesBefore_iff hdocClose] at hbefore
    omega
  · exact Nat.le_of_lt
      (hnested.start_lt_of_closesBefore (mem_merged.mpr (.inl hother)) hbefore)

end WellNested
end Regions

namespace Extraction

open Docblock.Span Docblock.Regions

/-- A documentation region with the snippets inside it, or a snippet on its own. -/
def withNested (spans : List Span) (span : Span) : List Span :=
  match span.kind with
  | .doc => span :: nested spans span
  | .snippet => if isNested spans span then [] else [span]

theorem mem_nested {spans : List Span} {doc span : Span} :
    span ∈ nested spans doc ↔
      span ∈ spans ∧ span.kind = .snippet ∧ doc.encloses span = true := by
  simp [nested]

theorem mem_withNested_doc {spans : List Span} {doc span : Span} (hkind : doc.kind = .doc) :
    span ∈ withNested spans doc ↔
      span = doc ∨ span ∈ spans ∧ span.kind = .snippet ∧ doc.encloses span = true := by
  simp [withNested, hkind, mem_nested]

theorem mem_withNested_snippet {spans : List Span} {snippet span : Span}
    (hkind : snippet.kind = .snippet) :
    span ∈ withNested spans snippet ↔ span = snippet ∧ isNested spans snippet = false := by
  cases hnested : isNested spans snippet <;> simp [withNested, hkind, hnested]

theorem isNested_iff {spans : List Span} {snippet : Span} :
    isNested spans snippet = true ↔
      ∃ doc ∈ spans, doc.kind = .doc ∧ doc.encloses snippet = true := by
  simp [isNested]

theorem mem_flatMap_withNested {spans : List Span} {span : Span} :
    span ∈ spans.flatMap (withNested spans) ↔ span ∈ spans := by
  rw [List.mem_flatMap]
  constructor
  · rintro ⟨host, hhost, hmem⟩
    cases hkind : host.kind with
    | doc =>
        rcases (mem_withNested_doc hkind).mp hmem with rfl | ⟨hspan, -⟩
        · exact hhost
        · exact hspan
    | snippet =>
        obtain ⟨rfl, -⟩ := (mem_withNested_snippet hkind).mp hmem
        exact hhost
  · intro hspan
    cases hkind : span.kind with
    | doc => exact ⟨span, hspan, (mem_withNested_doc hkind).mpr (.inl rfl)⟩
    | snippet =>
        cases hinside : isNested spans span with
        | false => exact ⟨span, hspan, (mem_withNested_snippet hkind).mpr ⟨rfl, hinside⟩⟩
        | true =>
            obtain ⟨doc, hdoc, hdocKind, hencloses⟩ := isNested_iff.mp hinside
            exact ⟨doc, hdoc, (mem_withNested_doc hdocKind).mpr (.inr ⟨hspan, hkind, hencloses⟩)⟩

variable {regions : Regions}

private theorem bounds_of_mem_withNested (hnested : regions.WellNested) {host span : Span}
    (hhost : host ∈ regions.merged) (hmem : span ∈ withNested regions.merged host) :
    host.start ≤ span.start ∧ span.start ≤ host.mergeIndex := by
  cases hkind : host.kind with
  | doc =>
      obtain ⟨close, hclose, hlt⟩ := hnested.closed hhost
      rw [mergeIndex_doc hkind hclose]
      rcases (mem_withNested_doc hkind).mp hmem with rfl | ⟨hspan, -, hencloses⟩
      · exact ⟨Nat.le_refl _, Nat.le_of_lt hlt⟩
      · obtain ⟨spanClose, hspanClose, hspanLt⟩ := hnested.closed hspan
        obtain ⟨hstart, hend⟩ := (encloses_iff hclose hspanClose).mp hencloses
        exact ⟨Nat.le_of_lt hstart, Nat.le_of_lt (Nat.lt_trans hspanLt hend)⟩
  | snippet =>
      obtain ⟨rfl, -⟩ := (mem_withNested_snippet hkind).mp hmem
      exact ⟨Nat.le_refl _, Nat.le_of_eq (mergeIndex_snippet hkind).symm⟩

theorem nested_merged (hnested : regions.WellNested) (doc : Span) :
    nested regions.merged doc = regions.snippets.filter doc.encloses := by
  rw [← hnested.filter_snippet_merged, List.filter_filter, nested]
  congr 1
  funext span
  exact Bool.and_comm _ _

private theorem pairwise_withNested (hnested : regions.WellNested) {span : Span}
    (hspan : span ∈ regions.merged) :
    (withNested regions.merged span).Pairwise
      fun first second => first.start < second.start := by
  rw [withNested]
  split
  · rw [List.pairwise_cons]
    constructor
    · intro snippet hsnippet
      obtain ⟨hmem, -, hencloses⟩ := mem_nested.mp hsnippet
      exact hnested.start_lt_of_encloses hspan hmem hencloses
    · rw [nested_merged hnested]
      refine (hnested.snippets_ordered.imp_of_mem ?_).filter _
      intro first second hfirst _ hbefore
      exact hnested.start_lt_of_closesBefore (mem_merged.mpr (.inr hfirst)) hbefore
  · split <;> simp

private theorem close_lt_start_of_docs (hnested : regions.WellNested) {first second : Span}
    {firstClose secondClose : Nat} (hfirst : first ∈ regions.docs) (hsecond : second ∈ regions.docs)
    (hfirstClose : first.close = some firstClose) (hsecondClose : second.close = some secondClose)
    (hlt : firstClose < secondClose) : firstClose < second.start := by
  obtain ⟨close, hclose, hstart⟩ := hnested.closed (mem_merged.mpr (.inl hfirst))
  obtain rfl : firstClose = close := Option.some.inj (hfirstClose.symm.trans hclose)
  rcases hnested.docs_trichotomy hfirst hsecond with rfl | hbefore | hbefore
  · obtain rfl : firstClose = secondClose := Option.some.inj (hfirstClose.symm.trans hsecondClose)
    omega
  · exact (closesBefore_iff hfirstClose).mp hbefore
  · have hafter := (closesBefore_iff hsecondClose).mp hbefore
    omega

private theorem start_lt_start_of_free (hnested : regions.WellNested) {snippet doc : Span}
    {docClose : Nat} (hsnippet : snippet ∈ regions.snippets) (hdoc : doc ∈ regions.docs)
    (hdocClose : doc.close = some docClose) (hfree : doc.encloses snippet = false)
    (hlt : snippet.start < docClose) : snippet.start < doc.start := by
  rcases hnested.apart_or_encloses hdoc hsnippet with hbefore | hbefore | hencloses
  · have hafter := (closesBefore_iff hdocClose).mp hbefore
    omega
  · exact hnested.start_lt_of_closesBefore (mem_merged.mpr (.inr hsnippet)) hbefore
  · rw [hfree] at hencloses
    contradiction

private theorem mergeIndex_lt_start (hnested : regions.WellNested) {first second span : Span}
    (hfirst : first ∈ regions.merged) (hsecond : second ∈ regions.merged)
    (hlt : first.mergeIndex < second.mergeIndex)
    (hmem : span ∈ withNested regions.merged first) : first.mergeIndex < second.start := by
  obtain ⟨secondClose, hsecondClose, -⟩ := hnested.closed hsecond
  cases hsecondKind : second.kind with
  | snippet => rwa [mergeIndex_snippet hsecondKind] at hlt
  | doc =>
      have hsecondDoc := hnested.mem_docs_of_kind hsecond hsecondKind
      rw [mergeIndex_doc hsecondKind hsecondClose] at hlt
      cases hfirstKind : first.kind with
      | doc =>
          obtain ⟨firstClose, hfirstClose, -⟩ := hnested.closed hfirst
          rw [mergeIndex_doc hfirstKind hfirstClose] at hlt ⊢
          exact close_lt_start_of_docs hnested (hnested.mem_docs_of_kind hfirst hfirstKind)
            hsecondDoc hfirstClose hsecondClose hlt
      | snippet =>
          have hfree : second.encloses first = false := by
            obtain ⟨-, hoff⟩ := (mem_withNested_snippet hfirstKind).mp hmem
            rw [← Bool.not_eq_true] at hoff ⊢
            exact fun hencloses => hoff (isNested_iff.mpr ⟨second, hsecond, hsecondKind, hencloses⟩)
          rw [mergeIndex_snippet hfirstKind] at hlt ⊢
          exact start_lt_start_of_free hnested (hnested.mem_snippets_of_kind hfirst hfirstKind)
            hsecondDoc hsecondClose hfree hlt

private theorem start_lt_of_mem_withNested (hnested : regions.WellNested)
    {first second left right : Span}
    (hfirst : first ∈ regions.merged) (hsecond : second ∈ regions.merged)
    (hlt : first.mergeIndex < second.mergeIndex)
    (hleft : left ∈ withNested regions.merged first)
    (hright : right ∈ withNested regions.merged second) :
    left.start < right.start :=
  calc left.start
    _ ≤ first.mergeIndex := (bounds_of_mem_withNested hnested hfirst hleft).2
    _ < second.start := mergeIndex_lt_start hnested hfirst hsecond hlt hleft
    _ ≤ right.start := (bounds_of_mem_withNested hnested hsecond hright).1

theorem pairwise_flatMap_withNested (hnested : regions.WellNested) :
    (regions.merged.flatMap (withNested regions.merged)).Pairwise
      fun first second => first.start < second.start := by
  rw [List.pairwise_flatMap]
  refine ⟨fun span hspan => pairwise_withNested hnested hspan, ?_⟩
  refine hnested.pairwise_merged.imp_of_mem ?_
  intro first second hfirst hsecond hlt left hleft right hright
  exact start_lt_of_mem_withNested hnested hfirst hsecond hlt hleft hright

private theorem flatMap_withNested_perm (hnested : regions.WellNested) :
    (regions.merged.flatMap (withNested regions.merged)).Perm
      (regions.docs ++ regions.snippets) := by
  have hflat : (regions.merged.flatMap (withNested regions.merged)).Nodup :=
    (pairwise_flatMap_withNested hnested).imp fun hlt heq => by simp [heq] at hlt
  have hmerged : regions.merged.Nodup :=
    hnested.pairwise_merged.imp fun hlt heq => by simp [heq] at hlt
  refine .trans ?_ regions.merged_perm
  exact (List.perm_ext_iff_of_nodup hflat hmerged).mpr fun _ => mem_flatMap_withNested

private theorem eq_of_start_eq {spans : List Span}
    (hordered : spans.Pairwise fun first second => first.start < second.start)
    {first second : Span} (hfirst : first ∈ spans) (hsecond : second ∈ spans)
    (heq : first.start = second.start) : first = second := by
  refine List.Pairwise.forall_of_forall_of_flip
    (R := fun first second => first.start = second.start → first = second)
    (fun _ _ _ => rfl) ?_ ?_ hfirst hsecond heq
  · exact hordered.imp fun hlt heq => by omega
  · exact hordered.imp fun hlt heq => by omega

theorem flatMap_withNested_eq_inOrder (hnested : regions.WellNested) :
    regions.merged.flatMap (withNested regions.merged) = regions.inOrder := by
  have hordered := pairwise_flatMap_withNested hnested
  have hsorted : regions.inOrder.Pairwise
      fun first second => first.start ≤ second.start := by
    refine (List.pairwise_mergeSort ?_ ?_ _).imp fun hle => by simpa using hle
    · simp only [decide_eq_true_eq]
      exact fun _ _ _ => Nat.le_trans
    · simp only [Bool.or_eq_true, decide_eq_true_eq]
      exact fun _ _ => Nat.le_total _ _
  have hperm : (regions.merged.flatMap (withNested regions.merged)).Perm regions.inOrder :=
    (flatMap_withNested_perm hnested).trans regions.inOrder_perm.symm
  refine hperm.eq_of_pairwise ?_ (hordered.imp Nat.le_of_lt) hsorted
  intro first second hfirst hsecond hle hge
  exact eq_of_start_eq hordered hfirst (hperm.mem_iff.mpr hsecond) (Nat.le_antisymm hle hge)

theorem pairwise_inOrder (hnested : regions.WellNested) :
    regions.inOrder.Pairwise fun first second => first.start < second.start :=
  flatMap_withNested_eq_inOrder hnested ▸ pairwise_flatMap_withNested hnested

theorem filter_doc_inOrder (hnested : regions.WellNested) :
    regions.inOrder.filter (·.kind = .doc) = regions.docs := by
  have hstarts : regions.docs.Pairwise fun first second => first.start < second.start := by
    refine hnested.docs_ordered.imp_of_mem ?_
    intro first second hfirst _ hbefore
    exact hnested.start_lt_of_closesBefore (mem_merged.mpr (.inl hfirst)) hbefore
  have hperm : (regions.inOrder.filter (·.kind = .doc)).Perm
      (regions.merged.filter (·.kind = .doc)) :=
    (regions.inOrder_perm.trans regions.merged_perm.symm).filter _
  rw [hnested.filter_doc_merged] at hperm
  refine hperm.eq_of_pairwise ?_ ((pairwise_inOrder hnested).filter _) hstarts
  intro first second _ _ hlt hgt
  omega

/-- What a region gives by itself, without the snippets inside it. -/
def ownPieces (language : Language) (markers : Markers) (text : Text) (tokens : List Token)
    (spans : List Span) (span : Span) : List Piece :=
  match span.kind with
  | .doc => bodyPiece language markers (bodyOf language markers text tokens spans span)
  | .snippet => codePiece language markers (between text tokens span)

theorem ownPieces_doc {span : Span} (hkind : span.kind = .doc) (language : Language)
    (markers : Markers) (text : Text) (tokens : List Token) (spans : List Span) :
    ownPieces language markers text tokens spans span =
      bodyPiece language markers (bodyOf language markers text tokens spans span) := by
  simp only [ownPieces, hkind]

theorem ownPieces_snippet {span : Span} (hkind : span.kind = .snippet) (language : Language)
    (markers : Markers) (text : Text) (tokens : List Token) (spans : List Span) :
    ownPieces language markers text tokens spans span =
      codePiece language markers (between text tokens span) := by
  simp only [ownPieces, hkind]

private theorem piecesOf_eq_flatMap (language : Language) (markers : Markers) (text : Text)
    (tokens : List Token) (spans : List Span) (span : Span) :
    piecesOf language markers text tokens spans span =
      (withNested spans span).flatMap (ownPieces language markers text tokens spans) := by
  cases hkind : span.kind with
  | doc =>
      have hinner :
          ((nested spans span).flatMap fun snippet =>
            codePiece language markers (between text tokens snippet)) =
          (nested spans span).flatMap (ownPieces language markers text tokens spans) := by
        refine List.flatMap_congr fun snippet hsnippet => ?_
        exact (ownPieces_snippet (mem_nested.mp hsnippet).2.1 ..).symm
      simp only [piecesOf, withNested, hkind, List.flatMap_cons, hinner, ownPieces_doc hkind]
  | snippet =>
      simp only [piecesOf, withNested, hkind]
      split
      · rfl
      · rw [List.flatMap_singleton, ownPieces_snippet hkind]

theorem pieces_eq_flatMap_inOrder (hnested : regions.WellNested) (language : Language)
    (markers : Markers) (text : Text) (tokens : List Token) :
    pieces language markers text tokens regions.merged =
      regions.inOrder.flatMap (ownPieces language markers text tokens regions.merged) := by
  rw [← flatMap_withNested_eq_inOrder hnested, List.flatMap_assoc, pieces]
  congr 1
  funext span
  exact piecesOf_eq_flatMap language markers text tokens regions.merged span

end Extraction
end Docblock
