import Docblock.Language.Table
import Docblock.Proofs.Extraction.Ownership
import Docblock.Proofs.Extraction.Relocation
import Mathlib

namespace Docblock

/-! The blocks of a text that consists of two parts, one below the other. -/

namespace Span

variable {language : Language} {markers : MarkerPair}

theorem pair_append {excluded excludedLeft excludedRight : List Span}
    {left right right' : List Token}
    (hopen : leftOpen language markers excludedLeft left = none)
    (hleft : Renumbered id excludedLeft excluded 0 0 left left)
    (hright : Renumbered (left.length + ·) excludedRight excluded 0 left.length right right') :
    pair language markers excluded (left ++ right') =
      pair language markers excludedLeft left ++
        (pair language markers excludedRight right).map (reindex (left.length + ·)) := by
  have hpairs := pairFrom_renumbered language markers none hleft
  have hstate := openFrom_renumbered language markers none hleft
  rw [leftOpen] at hopen
  rw [Option.map_none] at hpairs
  rw [hopen, Option.map_none] at hstate
  rw [pair, pairFrom_append, hpairs, hstate, map_reindex_id, Nat.zero_add]
  exact congrArg _ (pairFrom_renumbered language markers none hright)

theorem start_lt_of_encloses {outer inner : Span} (hencloses : outer.encloses inner = true) :
    outer.start < inner.start := by
  unfold encloses at hencloses
  split at hencloses
  · simp only [Bool.and_eq_true, decide_eq_true_eq] at hencloses
    exact hencloses.1
  · contradiction

theorem live_append_reindex_of_lt {left right : List Span} {bound i : Nat} (hlt : i < bound) :
    Live (left ++ right.map (reindex (bound + ·))) i ↔ Live left i := by
  have hright : Live (right.map (reindex (bound + ·))) i := by
    apply live_of_lt
    intro span hspan
    obtain ⟨other, -, rfl⟩ := List.mem_map.mp hspan
    exact Nat.lt_of_lt_of_le hlt (Nat.le_add_right _ _)
  rw [live_append, and_iff_left hright]

theorem live_append_reindex_add {left right : List Span} {bound i : Nat}
    (hclose : ∀ span ∈ left, ∃ close, span.close = some close ∧ close < bound) :
    Live (left ++ right.map (reindex (bound + ·))) (bound + i) ↔ Live right i := by
  have hleft : Live left (bound + i) := by
    apply live_of_gt
    intro span hspan
    obtain ⟨close, hclose, hlt⟩ := hclose span hspan
    exact ⟨close, hclose, by omega⟩
  rw [live_append, and_iff_right hleft]
  exact live_reindex fun _ _ hlt => Nat.add_lt_add_left hlt bound

end Span

namespace Regions

open Docblock.Span

variable {language : Language} {markers : Markers}

/-- Whether every region that begins in a text also ends in it. -/
structure Closed (language : Language) (markers : Markers) (text : Text) : Prop where
  code : leftOpen language markers.codePair [] (Token.all text) = none
  doc : leftOpen language markers.docPair (find language markers (Token.all text)).snippets
    (Token.all text) = none

def append (bound : Nat) (upper lower : Regions) : Regions where
  snippets := upper.snippets ++ lower.snippets.map (reindex (bound + ·))
  docs := upper.docs ++ lower.docs.map (reindex (bound + ·))

theorem filter_encloses_upper {bound : Nat} (upper lower : Regions) {span : Span} {close : Nat}
    (hclose : span.close = some close) (hlt : close < bound) :
    (append bound upper lower).snippets.filter span.encloses =
      upper.snippets.filter span.encloses := by
  have hlower : (lower.snippets.map (reindex (bound + ·))).filter span.encloses = [] := by
    rw [List.filter_eq_nil_iff]
    intro snippet hsnippet
    obtain ⟨other, -, rfl⟩ := List.mem_map.mp hsnippet
    cases hother : other.close with
    | none => simp [encloses, reindex, hother, hclose]
    | some otherClose =>
        have hreindex : (other.reindex (bound + ·)).close = some (bound + otherClose) := by
          rw [reindex, hother, Option.map_some]
        rw [encloses_iff hclose hreindex]
        omega
  rw [append, List.filter_append, hlower, List.append_nil]

theorem filter_encloses_lower {bound : Nat} {upper : Regions} (lower : Regions) (span : Span)
    (hbound : ∀ snippet ∈ upper.snippets, snippet.start < bound) :
    (append bound upper lower).snippets.filter (span.reindex (bound + ·)).encloses =
      (lower.snippets.filter span.encloses).map (reindex (bound + ·)) := by
  have hupper : upper.snippets.filter (span.reindex (bound + ·)).encloses = [] := by
    rw [List.filter_eq_nil_iff]
    intro snippet hsnippet hencloses
    have hlt : bound + span.start < snippet.start := start_lt_of_encloses hencloses
    have hstart := hbound snippet hsnippet
    omega
  have hmono : StrictMono (bound + ·) := fun _ _ hlt => Nat.add_lt_add_left hlt bound
  rw [append, List.filter_append, hupper, List.nil_append, List.filter_map]
  congr 2
  funext snippet
  exact reindex_encloses hmono span snippet

theorem find_append {left right right' : List Token}
    (hcode : leftOpen language markers.codePair [] left = none)
    (hdoc : leftOpen language markers.docPair (find language markers left).snippets left = none)
    (htexts : right'.map Token.text = right.map Token.text) :
    find language markers (left ++ right') =
      append left.length (find language markers left) (find language markers right) := by
  have hsnippets : pair language markers.codePair [] (left ++ right') =
      (find language markers left).snippets ++
        (find language markers right).snippets.map (reindex (left.length + ·)) :=
    pair_append hcode ⟨rfl, fun _ _ => rfl, fun _ _ => Iff.rfl⟩
      ⟨htexts, fun i _ => by simp, fun _ _ => Iff.of_eq rfl⟩
  rw [find, hsnippets, append]
  congr 1
  refine pair_append hdoc ⟨rfl, fun _ _ => rfl, ?_⟩ ⟨htexts, fun i _ => by simp, ?_⟩
  · intro i hi
    rw [Nat.zero_add]
    exact live_append_reindex_of_lt hi
  · intro i _
    rw [Nat.zero_add]
    refine live_append_reindex_add fun span hspan => ?_
    obtain ⟨close, hclose, -, hlt⟩ := close_of_mem_pair hspan
    exact ⟨close, hclose, hlt⟩

theorem mem_inOrder {regions : Regions} {span : Span} :
    span ∈ regions.inOrder ↔ span ∈ regions.merged :=
  regions.inOrder_perm.mem_iff.trans regions.merged_perm.mem_iff.symm

theorem inOrder_append {bound : Nat} {upper lower : Regions} (hupper : upper.WellNested)
    (hlower : lower.WellNested) (hboth : (append bound upper lower).WellNested)
    (hbound : ∀ span ∈ upper.merged, span.start < bound) :
    (append bound upper lower).inOrder =
      upper.inOrder ++ lower.inOrder.map (reindex (bound + ·)) := by
  have hlowerPerm : (lower.inOrder.map (reindex (bound + ·))).Perm
      (lower.docs.map (reindex (bound + ·)) ++ lower.snippets.map (reindex (bound + ·))) := by
    rw [← List.map_append]
    exact lower.inOrder_perm.map _
  have hperm : (append bound upper lower).inOrder.Perm
      (upper.inOrder ++ lower.inOrder.map (reindex (bound + ·))) := by
    refine (inOrder_perm _).trans (.trans ?_ (upper.inOrder_perm.append hlowerPerm).symm)
    rw [append, List.append_assoc, List.append_assoc]
    exact (List.perm_append_comm_assoc _ _ _).append_left _
  -- Both lists hold the same regions by strictly ascending starts, so they are one list.
  refine hperm.eq_of_pairwise (fun _ _ _ _ hlt hgt => (Nat.lt_asymm hlt hgt).elim)
    (Extraction.pairwise_inOrder hboth) ?_
  rw [List.pairwise_append, List.pairwise_map]
  refine ⟨Extraction.pairwise_inOrder hupper, ?_, ?_⟩
  · exact (Extraction.pairwise_inOrder hlower).imp fun hlt => Nat.add_lt_add_left hlt bound
  · intro first hfirst second hsecond
    obtain ⟨other, -, rfl⟩ := List.mem_map.mp hsecond
    exact Nat.lt_of_lt_of_le (hbound first (mem_inOrder.mp hfirst)) (Nat.le_add_right _ _)

end Regions

def RawBlock.renumber (count : Nat) (block : RawBlock) : RawBlock :=
  ⟨block.body, block.snippets.map fun snippet => ⟨snippet.index + count, snippet.text⟩⟩

namespace Extraction

open Docblock.Span Docblock.Regions

theorem group_append {first second : List Piece} (hnone : (group second).1 = []) :
    group (first ++ second) = ((group first).1, (group first).2 ++ (group second).2) := by
  induction first with
  | nil => exact Prod.ext hnone rfl
  | cons piece rest ih => cases piece <;> simp [group, ih]

theorem number_append (next : Nat) (first second : List (Text × List Text)) :
    number next (first ++ second) =
      number next first ++ number (next + (first.flatMap Prod.snd).length) second := by
  induction first generalizing next with
  | nil => rfl
  | cons entry rest ih =>
      simp [number, ih, Nat.add_assoc]

theorem number_add (count next : Nat) (groups : List (Text × List Text)) :
    number (count + next) groups = (number next groups).map (RawBlock.renumber count) := by
  induction groups generalizing next with
  | nil => rfl
  | cons entry rest ih =>
      rw [number, number, List.map_cons, ← ih, Nat.add_assoc, RawBlock.renumber,
        ← List.map_snd_add_zipIdx_eq_zipIdx, List.map_map, List.map_map]
      rfl

theorem length_flatMap_number (next : Nat) (groups : List (Text × List Text)) :
    ((number next groups).flatMap RawBlock.snippets).length =
      (groups.flatMap Prod.snd).length := by
  have hgroups := congrArg (List.flatMap Prod.snd) (map_number next groups)
  rw [← hgroups, List.flatMap_map, List.length_flatMap, List.length_flatMap]
  simp only [List.length_map]

section Parts

variable {language : Language} {markers : Markers} {first second : Text}

theorem tokens_append_line (first second : Text) :
    Token.all (first ++ '\n' :: second) =
      Token.all first ++
        (Token.all second).map (Token.relocate (Text.byteLength (first ++ ['\n']) + ·)) := by
  have hfirst : Token.all (first ++ ['\n']) = Token.all first := by
    rw [Token.all, Token.scan_append (Token.apart_cons_blank rfl first [])]
    exact List.append_nil _
  rw [List.append_cons, Token.all_append (Token.apart_append_singleton rfl first second), hfirst]

theorem find_append_line (hclosed : Closed language markers first) (second : Text) :
    find language markers (Token.all (first ++ '\n' :: second)) =
      append (Token.all first).length (find language markers (Token.all first))
        (find language markers (Token.all second)) := by
  rw [tokens_append_line]
  refine find_append hclosed.code hclosed.doc ?_
  rw [List.map_map]
  rfl

theorem start_lt_of_mem_merged {tokens : List Token} {span : Span}
    (hspan : span ∈ (find language markers tokens).merged) : span.start < tokens.length := by
  obtain ⟨close, opening, closing, hlocated⟩ := exists_located_of_mem_merged hspan
  exact (List.getElem?_eq_some_iff.mp hlocated.opening_eq).1

private theorem ownPieces_upper (hclosed : Closed language markers first) (second : Text)
    {span : Span}
    (hspan : span ∈ (find language markers (Token.all first)).merged) :
    ownPieces language markers (first ++ '\n' :: second) (Token.all (first ++ '\n' :: second))
        (find language markers (Token.all (first ++ '\n' :: second))).merged span =
      ownPieces language markers first (Token.all first)
        (find language markers (Token.all first)).merged span := by
  have hrelocated : Token.Relocated id id (Token.all first)
      (Token.all (first ++ '\n' :: second)) := by
    intro i token htoken
    rw [tokens_append_line]
    exact (List.getElem?_append_left (List.getElem?_eq_some_iff.mp htoken).1).trans htoken
  obtain ⟨close, opening, closing, hlocated⟩ := exists_located_of_mem_merged hspan
  have hclose := (List.getElem?_eq_some_iff.mp hlocated.closing_eq).1
  have hsnippets : (find language markers (Token.all (first ++ '\n' :: second))).snippets.filter
      (span.reindex id).encloses =
        ((find language markers (Token.all first)).snippets.filter span.encloses).map
          (reindex id) := by
    rw [reindex_id, map_reindex_id, find_append_line hclosed]
    exact filter_encloses_upper _ _ hlocated.close_eq hclose
  have hslice : ∀ i j range, Gap (Token.all first) i j range →
      Text.slice (first ++ '\n' :: second) (range.relocate id) = first.slice range := by
    rintro i j range ⟨-, left, right, hleft, hright, rfl⟩
    exact Text.slice_append_left (Token.isBoundary_stop (List.mem_of_getElem? hleft))
      (Token.isBoundary_start (List.mem_of_getElem? hright)).le _
  have hown := ownPieces_reindex strictMono_id hrelocated hspan hsnippets hslice
  rwa [reindex_id] at hown

private theorem ownPieces_lower (hclosed : Closed language markers first) {span : Span}
    (hspan : span ∈ (find language markers (Token.all second)).merged) :
    ownPieces language markers (first ++ '\n' :: second) (Token.all (first ++ '\n' :: second))
        (find language markers (Token.all (first ++ '\n' :: second))).merged
        (span.reindex ((Token.all first).length + ·)) =
      ownPieces language markers second (Token.all second)
        (find language markers (Token.all second)).merged span := by
  have hrelocated : Token.Relocated ((Token.all first).length + ·)
      (Text.byteLength (first ++ ['\n']) + ·) (Token.all second)
      (Token.all (first ++ '\n' :: second)) := by
    intro i token htoken
    rw [tokens_append_line, List.getElem?_append_right (Nat.le_add_right _ _),
      Nat.add_sub_cancel_left, List.getElem?_map, htoken, Option.map_some]
  refine ownPieces_reindex (fun _ _ hlt => Nat.add_lt_add_left hlt _) hrelocated hspan ?_ ?_
  · rw [find_append_line hclosed]
    refine filter_encloses_lower _ _ fun snippet hsnippet => ?_
    exact start_lt_of_mem_merged (mem_merged.mpr (.inr hsnippet))
  · intro i j range _
    rw [List.append_cons]
    exact Text.slice_append_right _ _ range

private theorem pieces_append_line (hclosed : Closed language markers first) (second : Text) :
    pieces language markers (first ++ '\n' :: second) (Token.all (first ++ '\n' :: second))
        (find language markers (Token.all (first ++ '\n' :: second))).merged =
      pieces language markers first (Token.all first)
          (find language markers (Token.all first)).merged ++
        pieces language markers second (Token.all second)
          (find language markers (Token.all second)).merged := by
  have hupper := find_wellNested language markers (Token.all first)
  have hlower := find_wellNested language markers (Token.all second)
  have hboth := find_wellNested language markers (Token.all (first ++ '\n' :: second))
  have horder : (find language markers (Token.all (first ++ '\n' :: second))).inOrder =
      (find language markers (Token.all first)).inOrder ++
        (find language markers (Token.all second)).inOrder.map
          (reindex ((Token.all first).length + ·)) := by
    rw [find_append_line hclosed] at hboth ⊢
    exact inOrder_append hupper hlower hboth fun _ => start_lt_of_mem_merged
  rw [pieces_eq_flatMap_inOrder hboth, horder, List.flatMap_append, List.flatMap_map,
    pieces_eq_flatMap_inOrder hupper, pieces_eq_flatMap_inOrder hlower]
  congr 1
  · refine List.flatMap_congr fun span hspan => ?_
    exact ownPieces_upper hclosed second (mem_inOrder.mp hspan)
  · refine List.flatMap_congr fun span hspan => ?_
    exact ownPieces_lower hclosed (mem_inOrder.mp hspan)

end Parts

end Extraction

namespace Ownership

open Extraction Regions

variable {language : Language} {markers : Markers} {text : Text}

private theorem group_pieces_fst_eq_nil
    (hafter : ∀ span ∈ attachments language markers text,
      ∃ doc ∈ taggedDocs language markers text, doc.start < span.start) :
    (group (pieces language markers text (Token.all text)
      (regions language markers text).merged)).1 = [] := by
  have hnested := regions_wellNested language markers text
  rw [pieces_eq_flatMap_pieceFrom,
    group_flatMap_pieceFrom (pairwise_inOrder hnested) fun _ _ => code_of_isTaggedDoc]
  simp only [codesWhere_inOrder, List.map_eq_nil_iff, List.filter_eq_nil_iff, decide_eq_true_eq]
  intro span hspan hnone
  obtain ⟨doc, hdoc, hlt⟩ := hafter span hspan
  obtain ⟨hencloses, hbefore⟩ := owner?_eq_none_iff.mp hnone doc hdoc
  have hmem := mem_inOrder.mp (List.mem_of_mem_filter hspan)
  have hdocs := mem_docs_of_mem_taggedDocs hdoc
  rcases hnested.closesBefore_or_encloses hdocs hmem hlt with hyes | hyes
  · simp [hbefore] at hyes
  · simp [hencloses] at hyes

end Ownership

namespace RawBlock

open Extraction Ownership

/-- Where no region of the first part is left open, and every attachment of the second one
comes after a tagged documentation region of it, the blocks of both parts stand one after
the other, and the code is numbered on. -/
theorem all_append_line {language : Language} {markers : Markers} {first second : Text}
    (hclosed : Regions.Closed language markers first)
    (hafter : ∀ span ∈ attachments language markers second,
      ∃ doc ∈ taggedDocs language markers second, doc.start < span.start) :
    all language markers (first ++ '\n' :: second) =
      all language markers first ++ (all language markers second).map
        (renumber ((all language markers first).flatMap snippets).length) := by
  have hnone : (group (pieces language markers second (Token.all second)
      (Regions.find language markers (Token.all second)).merged)).1 = [] :=
    group_pieces_fst_eq_nil hafter
  rw [all, blocks, pieces_append_line hclosed, group_append hnone, number_append, Nat.zero_add,
    ← length_flatMap_number 0, ← Nat.add_zero (List.length _), number_add]
  rfl

def upperPart : Text :=
  "#@ @a: b @# #@codestart@# f #@codeend@#".toList

def lowerPart : Text :=
  "#@ @c: d #@codestart@# g #@codeend@# @#".toList

theorem all_upperPart :
    all LanguageTable.python Markers.standard upperPart =
      [⟨" @a: b ".toList, [⟨0, "f".toList⟩]⟩] := by
  have hmerged : (Regions.find LanguageTable.python Markers.standard
      (Token.all upperPart)).merged = [⟨0, some 3, .doc⟩, ⟨4, some 6, .snippet⟩] := by
    decide +kernel
  have hpieces : pieces LanguageTable.python Markers.standard upperPart (Token.all upperPart)
      [⟨0, some 3, .doc⟩, ⟨4, some 6, .snippet⟩] =
        [.opening " @a: b ".toList, .code "f".toList] := by
    cbv
  exact all_of_pieces hmerged hpieces

theorem regions_lowerPart :
    regions LanguageTable.python Markers.standard lowerPart =
      ⟨[⟨3, some 5, .snippet⟩], [⟨0, some 6, .doc⟩]⟩ := by
  decide +kernel

private theorem body_lowerPart :
    Ownership.body LanguageTable.python Markers.standard lowerPart ⟨0, some 6, .doc⟩ =
      " @c: d  ".toList := by
  rw [Ownership.body, regions_lowerPart]
  cbv

private theorem all_lowerPart :
    all LanguageTable.python Markers.standard lowerPart =
      [⟨" @c: d  ".toList, [⟨0, "g".toList⟩]⟩] := by
  have hpieces : pieces LanguageTable.python Markers.standard lowerPart (Token.all lowerPart)
      (Regions.merged ⟨[⟨3, some 5, .snippet⟩], [⟨0, some 6, .doc⟩]⟩) =
        [.opening " @c: d  ".toList, .code "g".toList] := by
    cbv
  exact all_of_pieces (congrArg Regions.merged regions_lowerPart) hpieces

private theorem isTaggedDoc_lowerPart :
    isTaggedDoc LanguageTable.python Markers.standard lowerPart ⟨0, some 6, .doc⟩ = true := by
  rw [isTaggedDoc, body_lowerPart]
  decide

theorem all_upperPart_lowerPart :
    Regions.Closed LanguageTable.python Markers.standard upperPart ∧
      all LanguageTable.python Markers.standard (upperPart ++ '\n' :: lowerPart) =
        [⟨" @a: b ".toList, [⟨0, "f".toList⟩]⟩, ⟨" @c: d  ".toList, [⟨1, "g".toList⟩]⟩] := by
  have hclosed : Regions.Closed LanguageTable.python Markers.standard upperPart :=
    ⟨by decide +kernel, by decide +kernel⟩
  have hafter : ∀ span ∈ attachments LanguageTable.python Markers.standard lowerPart,
      ∃ doc ∈ taggedDocs LanguageTable.python Markers.standard lowerPart,
        doc.start < span.start := by
    intro span hspan
    obtain ⟨hspan, hcode⟩ := List.mem_filter.mp hspan
    refine ⟨⟨0, some 6, .doc⟩, ?_, ?_⟩
    · rw [taggedDocs, regions_lowerPart, List.mem_filter]
      exact ⟨List.mem_cons_self, isTaggedDoc_lowerPart⟩
    · rw [regions_lowerPart, Regions.mem_inOrder, Regions.mem_merged, List.mem_singleton,
        List.mem_singleton] at hspan
      rcases hspan with rfl | rfl
      · simp [code_of_isTaggedDoc isTaggedDoc_lowerPart] at hcode
      · decide
  refine ⟨hclosed, ?_⟩
  rw [all_append_line hclosed hafter, all_upperPart, all_lowerPart]
  rfl

end RawBlock
end Docblock
