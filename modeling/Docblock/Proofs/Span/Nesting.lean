import Docblock.Proofs.Span.Pairing

namespace Docblock

namespace Span

/-! Documentation is paired outside the snippets, so it never crosses one, and merging
puts both in one order. -/

/-- The index that a region is merged by: documentation stands where it closes, a snippet
where it starts. -/
def mergeIndex (span : Span) : Nat :=
  match span.kind with
  | .doc => span.close.getD span.start
  | .snippet => span.start

theorem mergeIndex_doc {span : Span} {close : Nat} (hkind : span.kind = .doc)
    (hclose : span.close = some close) : span.mergeIndex = close := by
  simp [mergeIndex, hkind, hclose]

theorem mergeIndex_snippet {span : Span} (hkind : span.kind = .snippet) :
    span.mergeIndex = span.start := by
  simp [mergeIndex, hkind]

theorem not_covers_iff {span : Span} {close index : Nat} (hclose : span.close = some close) :
    span.covers index = false ↔ index < span.start ∨ close < index := by
  simp only [covers, hclose, Option.any_some, Bool.and_eq_false_iff, decide_eq_false_iff_not]
  omega

theorem Paired.apart_or_encloses {outerKind innerKind : SpanKind}
    {excluded inners : List Span} {outer inner : Span}
    (houter : Paired outerKind inners outer) (hinner : Paired innerKind excluded inner)
    (hmem : inner ∈ inners) :
    outer.closesBefore inner = true ∨ inner.closesBefore outer = true ∨
      outer.encloses inner = true := by
  obtain ⟨outerClose, houterClose, houterLt, hcloseLive⟩ := houter.closed
  obtain ⟨innerClose, hinnerClose, hinnerLt, -⟩ := hinner.closed
  have hstart := (not_covers_iff hinnerClose).mp (houter.start_live.not_covers hmem)
  have hclose := (not_covers_iff hinnerClose).mp (hcloseLive.not_covers hmem)
  rw [closesBefore_iff houterClose, closesBefore_iff hinnerClose,
    encloses_iff houterClose hinnerClose]
  rcases hstart with hstart | hstart
  · rcases hclose with hclose | hclose
    · exact .inl hclose
    · exact .inr (.inr ⟨hstart, hclose⟩)
  · exact .inr (.inl hstart)

theorem closesAfter_iff {snippet span : Span} :
    closesAfter snippet span = true ↔
      span.kind = .doc ∧ ∃ close, span.close = some close ∧ snippet.start < close := by
  simp [closesAfter, Option.any_eq_true]

private theorem lt_mergeIndex_of_closesAfter {snippet span : Span}
    (hafter : closesAfter snippet span = true) : snippet.start < span.mergeIndex := by
  obtain ⟨hkind, close, hclose, hlt⟩ := closesAfter_iff.mp hafter
  rwa [mergeIndex_doc hkind hclose]

theorem insertSnippet_perm (snippet : Span) (spans : List Span) :
    (insertSnippet snippet spans).Perm (snippet :: spans) := by
  induction spans with
  | nil => exact .refl _
  | cons span rest ih =>
      rw [insertSnippet]
      split
      · exact .refl _
      · exact (ih.cons span).trans (.swap snippet span rest)

/-- Every region is documentation that closes after the snippet starts, or is merged
before it. -/
def Placed (snippet : Span) (spans : List Span) : Prop :=
  ∀ span ∈ spans, closesAfter snippet span = true ∨ span.mergeIndex < snippet.mergeIndex

private theorem pairwise_insertSnippet {snippet : Span} {spans : List Span}
    (hkind : snippet.kind = .snippet) (hplaced : Placed snippet spans)
    (hordered : spans.Pairwise fun first second => first.mergeIndex < second.mergeIndex) :
    (insertSnippet snippet spans).Pairwise
      fun first second => first.mergeIndex < second.mergeIndex := by
  induction spans with
  | nil => simp [insertSnippet]
  | cons span rest ih =>
      rw [Placed, List.forall_mem_cons] at hplaced
      obtain ⟨hspan, hrest⟩ := List.pairwise_cons.mp hordered
      rw [insertSnippet]
      split
      · rename_i hafter
        refine List.pairwise_cons.mpr ⟨?_, hordered⟩
        have hlt : snippet.mergeIndex < span.mergeIndex := by
          rw [mergeIndex_snippet hkind]
          exact lt_mergeIndex_of_closesAfter hafter
        intro later hlater
        rcases List.mem_cons.mp hlater with rfl | hlater
        · exact hlt
        · exact Nat.lt_trans hlt (hspan later hlater)
      · rename_i hafter
        refine List.pairwise_cons.mpr ⟨?_, ih hplaced.2 hrest⟩
        intro later hlater
        rcases List.mem_cons.mp ((insertSnippet_perm snippet rest).mem_iff.mp hlater) with
          rfl | hlater
        · exact hplaced.1.resolve_left hafter
        · exact hspan later hlater

theorem merge_perm (docs snippets : List Span) :
    (merge docs snippets).Perm (docs ++ snippets) := by
  induction snippets generalizing docs with
  | nil => simp [merge]
  | cons snippet rest ih =>
      have hinserted : (insertSnippet snippet docs ++ rest).Perm (snippet :: docs ++ rest) :=
        (insertSnippet_perm snippet docs).append_right rest
      exact (ih (insertSnippet snippet docs)).trans (hinserted.trans List.perm_middle.symm)

theorem pairwise_merge {docs snippets : List Span}
    (hkind : ∀ snippet ∈ snippets, snippet.kind = .snippet)
    (hplaced : ∀ snippet ∈ snippets, Placed snippet docs)
    (hsnippets : snippets.Pairwise fun first second => first.mergeIndex < second.mergeIndex)
    (hdocs : docs.Pairwise fun first second => first.mergeIndex < second.mergeIndex) :
    (merge docs snippets).Pairwise
      fun first second => first.mergeIndex < second.mergeIndex := by
  induction snippets generalizing docs with
  | nil => exact hdocs
  | cons snippet rest ih =>
      rw [List.forall_mem_cons] at hkind hplaced
      obtain ⟨hsnippet, hrest⟩ := List.pairwise_cons.mp hsnippets
      change (merge (insertSnippet snippet docs) rest).Pairwise _
      refine ih hkind.2 ?_ hrest (pairwise_insertSnippet hkind.1 hplaced.1 hdocs)
      intro later hlater span hspan
      rcases List.mem_cons.mp ((insertSnippet_perm snippet docs).mem_iff.mp hspan) with
        rfl | hspan
      · exact .inr (hsnippet later hlater)
      · exact hplaced.2 later hlater span hspan

end Span

namespace Regions

open Docblock.Span

/-- Snippets and documentation as two scans find them, the second outside the first. -/
structure WellNested (regions : Regions) : Prop where
  snippet_paired : ∀ snippet ∈ regions.snippets, Paired .snippet [] snippet
  doc_paired : ∀ doc ∈ regions.docs, Paired .doc regions.snippets doc
  snippets_ordered :
    regions.snippets.Pairwise fun first second => first.closesBefore second = true
  docs_ordered : regions.docs.Pairwise fun first second => first.closesBefore second = true

theorem find_wellNested (language : Language) (markers : Markers) (tokens : List Token) :
    (find language markers tokens).WellNested where
  snippet_paired _ hmem := paired_of_mem_pair hmem
  doc_paired _ hmem := paired_of_mem_pair hmem
  snippets_ordered := pairwise_pair tokens
  docs_ordered := pairwise_pair tokens

namespace WellNested

variable {regions : Regions}

theorem apart_or_encloses (hnested : regions.WellNested) {doc snippet : Span}
    (hdoc : doc ∈ regions.docs) (hsnippet : snippet ∈ regions.snippets) :
    doc.closesBefore snippet = true ∨ snippet.closesBefore doc = true ∨
      doc.encloses snippet = true :=
  (hnested.doc_paired doc hdoc).apart_or_encloses (hnested.snippet_paired snippet hsnippet)
    hsnippet

theorem docs_pairwise_mergeIndex (hnested : regions.WellNested) :
    regions.docs.Pairwise fun first second => first.mergeIndex < second.mergeIndex := by
  refine hnested.docs_ordered.imp_of_mem ?_
  intro first second hfirst hsecond hbefore
  obtain ⟨firstClose, hfirstClose, -⟩ := (hnested.doc_paired first hfirst).closed
  obtain ⟨secondClose, hsecondClose, hsecondLt, -⟩ := (hnested.doc_paired second hsecond).closed
  rw [mergeIndex_doc (hnested.doc_paired first hfirst).kind_eq hfirstClose,
    mergeIndex_doc (hnested.doc_paired second hsecond).kind_eq hsecondClose]
  exact Nat.lt_trans ((closesBefore_iff hfirstClose).mp hbefore) hsecondLt

theorem snippets_pairwise_mergeIndex (hnested : regions.WellNested) :
    regions.snippets.Pairwise fun first second => first.mergeIndex < second.mergeIndex := by
  refine hnested.snippets_ordered.imp_of_mem ?_
  intro first second hfirst hsecond hbefore
  obtain ⟨close, hclose, hlt, -⟩ := (hnested.snippet_paired first hfirst).closed
  rw [mergeIndex_snippet (hnested.snippet_paired first hfirst).kind_eq,
    mergeIndex_snippet (hnested.snippet_paired second hsecond).kind_eq]
  exact Nat.lt_trans hlt ((closesBefore_iff hclose).mp hbefore)

private theorem placed (hnested : regions.WellNested) {snippet : Span}
    (hsnippet : snippet ∈ regions.snippets) : Placed snippet regions.docs := by
  intro doc hdoc
  have hpaired := hnested.doc_paired doc hdoc
  obtain ⟨close, hclose, -, hlive⟩ := hpaired.closed
  obtain ⟨snippetClose, hsnippetClose, hlt, -⟩ :=
    (hnested.snippet_paired snippet hsnippet).closed
  have hoff := (not_covers_iff hsnippetClose).mp (hlive.not_covers hsnippet)
  rw [closesAfter_iff, mergeIndex_doc hpaired.kind_eq hclose,
    mergeIndex_snippet (hnested.snippet_paired snippet hsnippet).kind_eq]
  rcases hoff with hoff | hoff
  · exact .inr hoff
  · exact .inl ⟨hpaired.kind_eq, close, hclose, Nat.lt_trans hlt hoff⟩

theorem pairwise_merged (hnested : regions.WellNested) :
    regions.merged.Pairwise fun first second => first.mergeIndex < second.mergeIndex :=
  pairwise_merge (fun snippet hsnippet => (hnested.snippet_paired snippet hsnippet).kind_eq)
    (fun _ hsnippet => hnested.placed hsnippet) hnested.snippets_pairwise_mergeIndex
    hnested.docs_pairwise_mergeIndex

theorem filter_merged (hnested : regions.WellNested) {kind : SpanKind} {kept : List Span}
    (hfilter : (regions.docs ++ regions.snippets).filter (·.kind = kind) = kept)
    (hordered : kept.Pairwise fun first second => first.mergeIndex < second.mergeIndex) :
    regions.merged.filter (·.kind = kind) = kept := by
  have hperm := (merge_perm regions.docs regions.snippets).filter (·.kind = kind)
  rw [hfilter] at hperm
  exact hperm.eq_of_pairwise (fun _ _ _ _ hlt hgt => (Nat.lt_asymm hlt hgt).elim)
    (hnested.pairwise_merged.filter _) hordered

theorem filter_kind_docs (hnested : regions.WellNested) (kind : SpanKind) :
    regions.docs.filter (·.kind = kind) = if kind = .doc then regions.docs else [] := by
  cases kind with
  | doc =>
      refine List.filter_eq_self.mpr fun doc hdoc => ?_
      simp [(hnested.doc_paired doc hdoc).kind_eq]
  | snippet =>
      refine List.filter_eq_nil_iff.mpr fun doc hdoc => ?_
      simp [(hnested.doc_paired doc hdoc).kind_eq]

theorem filter_kind_snippets (hnested : regions.WellNested) (kind : SpanKind) :
    regions.snippets.filter (·.kind = kind) =
      if kind = .snippet then regions.snippets else [] := by
  cases kind with
  | doc =>
      refine List.filter_eq_nil_iff.mpr fun snippet hsnippet => ?_
      simp [(hnested.snippet_paired snippet hsnippet).kind_eq]
  | snippet =>
      refine List.filter_eq_self.mpr fun snippet hsnippet => ?_
      simp [(hnested.snippet_paired snippet hsnippet).kind_eq]

theorem filter_doc_merged (hnested : regions.WellNested) :
    regions.merged.filter (·.kind = .doc) = regions.docs := by
  apply hnested.filter_merged _ hnested.docs_pairwise_mergeIndex
  rw [List.filter_append, hnested.filter_kind_docs, hnested.filter_kind_snippets]
  exact List.append_nil _

theorem filter_snippet_merged (hnested : regions.WellNested) :
    regions.merged.filter (·.kind = .snippet) = regions.snippets := by
  apply hnested.filter_merged _ hnested.snippets_pairwise_mergeIndex
  rw [List.filter_append, hnested.filter_kind_docs, hnested.filter_kind_snippets]
  rfl

end WellNested

/-- In every text the regions are well nested, and their merge is in order: documentation
and snippets lie apart, or the snippet lies strictly inside, and no marker of documentation
lies in a snippet. -/
theorem find_nested_and_merged (language : Language) (markers : Markers) (text : Text) :
    let regions := find language markers (Token.all text)
    (∀ span ∈ regions.docs ++ regions.snippets, span.isResolved = true) ∧
      (∀ doc ∈ regions.docs, ∀ snippet ∈ regions.snippets,
        (doc.closesBefore snippet = true ∨ snippet.closesBefore doc = true ∨
          doc.encloses snippet = true) ∧
        snippet.covers doc.start = false ∧
        ∀ close ∈ doc.close, snippet.covers close = false) ∧
      regions.merged.Perm (regions.docs ++ regions.snippets) ∧
      (regions.merged.Pairwise fun first second => first.mergeIndex < second.mergeIndex) ∧
      regions.docs.Sublist regions.merged ∧
      regions.snippets.Sublist regions.merged := by
  intro regions
  have hnested : regions.WellNested := find_wellNested language markers (Token.all text)
  refine ⟨?_, ?_, merge_perm _ _, hnested.pairwise_merged, ?_, ?_⟩
  · intro span hspan
    rcases List.mem_append.mp hspan with hdoc | hsnippet
    · exact (hnested.doc_paired span hdoc).isResolved
    · exact (hnested.snippet_paired span hsnippet).isResolved
  · intro doc hdoc snippet hsnippet
    have hpaired := hnested.doc_paired doc hdoc
    refine ⟨hnested.apart_or_encloses hdoc hsnippet, hpaired.start_live.not_covers hsnippet, ?_⟩
    intro close hclose
    obtain ⟨docClose, hdocClose, -, hlive⟩ := hpaired.closed
    obtain rfl : docClose = close := Option.some.inj (hdocClose.symm.trans hclose)
    exact hlive.not_covers hsnippet
  · exact hnested.filter_doc_merged ▸ List.filter_sublist
  · exact hnested.filter_snippet_merged ▸ List.filter_sublist

end Regions
end Docblock
