import Docblock.Language.Table
import Docblock.Proofs.Extraction.SourceOrder

namespace Docblock

namespace Extraction

/-! Code goes to the block that opened last.  Read off regions in the order of their starts,
that is the block of the last tagged region that starts before the code. -/

section Grouping

variable (tagged : Span → Bool) (body code : Span → Text)

def pieceFrom (span : Span) : List Piece :=
  if tagged span then [.opening (body span)]
  else if code span = [] then [] else [.code (code span)]

def lastTagged? (spans : List Span) (span : Span) : Option Span :=
  (spans.filter fun doc => tagged doc && doc.start < span.start).getLast?

variable {tagged body code}

theorem lastTagged?_cons_of_lt {first span : Span} {rest : List Span}
    (hlt : first.start < span.start) :
    lastTagged? tagged (first :: rest) span =
      (lastTagged? tagged rest span).or (if tagged first then some first else none) := by
  cases htagged : tagged first with
  | false => simp [lastTagged?, htagged]
  | true =>
      simp only [lastTagged?, htagged, hlt, List.filter_cons_of_pos, Bool.true_and,
        decide_true, if_true]
      rw [List.getLast?_cons]
      cases (rest.filter fun doc => tagged doc && doc.start < span.start).getLast? <;> rfl

private theorem lastTagged?_cons_self {first : Span} {rest : List Span}
    (hfirst : ∀ span ∈ rest, first.start < span.start) :
    lastTagged? tagged (first :: rest) first = none := by
  rw [lastTagged?, List.getLast?_eq_none_iff, List.filter_eq_nil_iff]
  intro span hspan
  rcases List.mem_cons.mp hspan with rfl | hspan
  · simp
  · have hlt := hfirst span hspan
    simp only [Bool.and_eq_true, decide_eq_true_eq]
    omega

private theorem mem_of_lastTagged? {spans : List Span} {span doc : Span}
    (hlast : lastTagged? tagged spans span = some doc) : doc ∈ spans ∧ tagged doc = true := by
  have hmem := List.mem_of_getLast? hlast
  simp only [List.mem_filter, Bool.and_eq_true] at hmem
  exact ⟨hmem.1, hmem.2.1⟩

def codesWhere (tagged : Span → Bool) (code : Span → Text) (spans : List Span)
    (accept : Option Span → Bool) : List Text :=
  ((spans.filter fun span => code span ≠ []).filter
    fun span => accept (lastTagged? tagged spans span)).map code

theorem codesWhere_congr {spans : List Span} {accept other : Option Span → Bool}
    (hnone : accept none = other none)
    (hsome : ∀ doc ∈ spans, accept (some doc) = other (some doc)) :
    codesWhere tagged code spans accept = codesWhere tagged code spans other := by
  rw [codesWhere, codesWhere]
  congr 1
  refine List.filter_congr fun span _ => ?_
  cases hlast : lastTagged? tagged spans span with
  | none => exact hnone
  | some doc => exact hsome doc (mem_of_lastTagged? hlast).1

theorem codesWhere_cons_untagged {first : Span} {rest : List Span}
    (hfirst : ∀ span ∈ rest, first.start < span.start) (htagged : tagged first = false)
    (accept : Option Span → Bool) :
    codesWhere tagged code (first :: rest) accept =
      (if code first ≠ [] ∧ accept none then [code first] else []) ++
        codesWhere tagged code rest accept := by
  have hlast : ∀ span ∈ rest.filter (code · ≠ []),
      accept (lastTagged? tagged (first :: rest) span) =
        accept (lastTagged? tagged rest span) := by
    intro span hspan
    rw [lastTagged?_cons_of_lt (hfirst span (List.mem_of_mem_filter hspan))]
    simp [htagged]
  by_cases hcode : code first = []
  · rw [codesWhere, List.filter_cons_of_neg (by simp [hcode]), List.filter_congr hlast]
    simp [hcode, codesWhere]
  · rw [codesWhere, List.filter_cons_of_pos (by simp [hcode]), List.filter_cons,
      lastTagged?_cons_self hfirst, List.filter_congr hlast]
    cases accept none <;> simp [hcode, codesWhere]

theorem codesWhere_cons_tagged {first : Span} {rest : List Span}
    (hfirst : ∀ span ∈ rest, first.start < span.start) (htagged : tagged first = true)
    (hcode : code first = []) (accept : Option Span → Bool) :
    codesWhere tagged code (first :: rest) accept =
      codesWhere tagged code rest fun last => accept (last.or (some first)) := by
  have hlast : ∀ span ∈ rest.filter (code · ≠ []),
      accept (lastTagged? tagged (first :: rest) span) =
        accept ((lastTagged? tagged rest span).or (some first)) := by
    intro span hspan
    rw [lastTagged?_cons_of_lt (hfirst span (List.mem_of_mem_filter hspan)), htagged]
    rfl
  rw [codesWhere, List.filter_cons_of_neg (by simp [hcode]), List.filter_congr hlast, codesWhere]

theorem codesWhere_none_cons_tagged {first : Span} {rest : List Span}
    (hfirst : ∀ span ∈ rest, first.start < span.start) (htagged : tagged first = true)
    (hcode : code first = []) :
    codesWhere tagged code (first :: rest) (· = none) = [] := by
  rw [codesWhere_cons_tagged hfirst htagged hcode]
  simp [codesWhere]

theorem codesWhere_isSome_cons_tagged {first : Span} {rest : List Span}
    (hfirst : ∀ span ∈ rest, first.start < span.start) (htagged : tagged first = true)
    (hcode : code first = []) :
    codesWhere tagged code (first :: rest) Option.isSome =
      (rest.filter fun span => code span ≠ []).map code := by
  rw [codesWhere_cons_tagged hfirst htagged hcode]
  simp [codesWhere]

theorem codesWhere_self_cons_tagged {first : Span} {rest : List Span}
    (hfirst : ∀ span ∈ rest, first.start < span.start) (htagged : tagged first = true)
    (hcode : code first = []) :
    codesWhere tagged code (first :: rest) (· = some first) =
      codesWhere tagged code rest (· = none) := by
  rw [codesWhere_cons_tagged hfirst htagged hcode]
  refine codesWhere_congr (by simp) fun doc hdoc => ?_
  have hne : doc ≠ first := by
    rintro rfl
    exact Nat.lt_irrefl _ (hfirst doc hdoc)
  simp [hne]

theorem codesWhere_some_cons {first doc : Span} {rest : List Span}
    (hfirst : ∀ span ∈ rest, first.start < span.start)
    (hcode : tagged first = true → code first = []) (hdoc : doc ∈ rest) :
    codesWhere tagged code (first :: rest) (· = some doc) =
      codesWhere tagged code rest (· = some doc) := by
  cases htagged : tagged first with
  | false =>
      rw [codesWhere_cons_untagged hfirst htagged]
      simp
  | true =>
      rw [codesWhere_cons_tagged hfirst htagged (hcode htagged)]
      have hne : first ≠ doc := by
        rintro rfl
        exact Nat.lt_irrefl _ (hfirst first hdoc)
      exact codesWhere_congr (by simp [hne]) (by simp)

theorem group_flatMap_pieceFrom {spans : List Span}
    (hordered : spans.Pairwise fun first second => first.start < second.start)
    (hcode : ∀ span ∈ spans, tagged span = true → code span = []) :
    group (spans.flatMap (pieceFrom tagged body code)) =
      (codesWhere tagged code spans (· = none),
        (spans.filter tagged).map fun doc =>
          (body doc, codesWhere tagged code spans (· = some doc))) := by
  induction spans with
  | nil => rfl
  | cons first rest ih =>
      obtain ⟨hfirst, hrest⟩ := List.pairwise_cons.mp hordered
      rw [List.forall_mem_cons] at hcode
      have hgrouped := ih hrest hcode.2
      have hlater : ∀ doc ∈ rest.filter tagged,
          (body doc, codesWhere tagged code (first :: rest) (· = some doc)) =
            (body doc, codesWhere tagged code rest (· = some doc)) := by
        intro doc hdoc
        rw [codesWhere_some_cons hfirst hcode.1 (List.mem_of_mem_filter hdoc)]
      cases htagged : tagged first with
      | true =>
          simp only [List.flatMap_cons, pieceFrom, htagged, if_true, List.cons_append,
            List.nil_append, group, hgrouped, List.filter_cons_of_pos, List.map_cons,
            codesWhere_none_cons_tagged hfirst htagged (hcode.1 htagged),
            codesWhere_self_cons_tagged hfirst htagged (hcode.1 htagged),
            List.map_congr_left hlater]
      | false =>
          rw [codesWhere_cons_untagged hfirst htagged,
            List.filter_cons_of_neg (by simp [htagged]), List.map_congr_left hlater]
          by_cases hnone : code first = []
          · simp [pieceFrom, htagged, hnone, hgrouped]
          · simp [pieceFrom, htagged, hnone, group, hgrouped]

private theorem codesWhere_none_append_isSome {spans : List Span}
    (hordered : spans.Pairwise fun first second => first.start < second.start)
    (hcode : ∀ span ∈ spans, tagged span = true → code span = []) :
    codesWhere tagged code spans (· = none) ++ codesWhere tagged code spans Option.isSome =
      (spans.filter fun span => code span ≠ []).map code := by
  induction spans with
  | nil => rfl
  | cons first rest ih =>
      obtain ⟨hfirst, hrest⟩ := List.pairwise_cons.mp hordered
      rw [List.forall_mem_cons] at hcode
      have hcodes := ih hrest hcode.2
      cases htagged : tagged first with
      | true =>
          have hnone := hcode.1 htagged
          rw [codesWhere_none_cons_tagged hfirst htagged hnone,
            codesWhere_isSome_cons_tagged hfirst htagged hnone, List.nil_append,
            List.filter_cons_of_neg (by simp [hnone])]
      | false =>
          rw [codesWhere_cons_untagged hfirst htagged, codesWhere_cons_untagged hfirst htagged]
          by_cases hnone : code first = []
          · rw [List.filter_cons_of_neg (by simp [hnone])]
            simpa [hnone] using hcodes
          · rw [List.filter_cons_of_pos (by simp [hnone]), List.map_cons, ← hcodes]
            simp [hnone]

theorem flatMap_codesWhere_some {spans : List Span}
    (hordered : spans.Pairwise fun first second => first.start < second.start)
    (hcode : ∀ span ∈ spans, tagged span = true → code span = []) :
    ((spans.filter tagged).flatMap fun doc => codesWhere tagged code spans (· = some doc)) =
      codesWhere tagged code spans Option.isSome := by
  induction spans with
  | nil => rfl
  | cons first rest ih =>
      obtain ⟨hfirst, hrest⟩ := List.pairwise_cons.mp hordered
      rw [List.forall_mem_cons] at hcode
      have hlater : ((rest.filter tagged).flatMap fun doc =>
          codesWhere tagged code (first :: rest) (· = some doc)) =
            codesWhere tagged code rest Option.isSome := by
        rw [← ih hrest hcode.2]
        refine List.flatMap_congr fun doc hdoc => ?_
        exact codesWhere_some_cons hfirst hcode.1 (List.mem_of_mem_filter hdoc)
      cases htagged : tagged first with
      | true =>
          have hnone := hcode.1 htagged
          rw [List.filter_cons_of_pos htagged, List.flatMap_cons, hlater,
            codesWhere_self_cons_tagged hfirst htagged hnone,
            codesWhere_isSome_cons_tagged hfirst htagged hnone,
            codesWhere_none_append_isSome hrest hcode.2]
      | false =>
          rw [List.filter_cons_of_neg (by simp [htagged]), hlater,
            codesWhere_cons_untagged hfirst htagged]
          simp

end Grouping

theorem map_number (next : Nat) (groups : List (Text × List Text)) :
    ((number next groups).map fun block =>
      (block.body, block.snippets.map NumberedCode.text)) = groups := by
  induction groups generalizing next with
  | nil => rfl
  | cons first rest ih =>
      obtain ⟨body, codes⟩ := first
      rw [number, List.map_cons, ih]
      simp [Function.comp_def]

theorem map_body_number (next : Nat) (groups : List (Text × List Text)) :
    (number next groups).map RawBlock.body = groups.map Prod.fst := by
  have hbodies := congrArg (List.map Prod.fst) (map_number next groups)
  rw [List.map_map] at hbodies
  exact hbodies

theorem flatMap_index_number (next : Nat) (groups : List (Text × List Text)) :
    ((number next groups).flatMap fun block => block.snippets.map NumberedCode.index) =
      List.range' next (groups.flatMap Prod.snd).length := by
  induction groups generalizing next with
  | nil => rfl
  | cons first rest ih =>
      obtain ⟨body, codes⟩ := first
      rw [number, List.flatMap_cons, ih, List.flatMap_cons, List.length_append,
        ← List.range'_append_1]
      simp [Function.comp_def]

theorem codePiece_eq (language : Language) (markers : Markers) (text : Text) :
    codePiece language markers text =
      if Snippet.normalize language markers text = [] then []
      else [.code (Snippet.normalize language markers text)] := by
  rw [codePiece]
  split
  · rename_i hcode
    rw [if_pos hcode]
  · rename_i hcode
    rw [if_neg hcode]

end Extraction

namespace Ownership

open Extraction Regions

variable (language : Language) (markers : Markers) (text : Text)

def regions : Regions :=
  Regions.find language markers (Token.all text)

/-- What is kept of a documentation region between the snippets inside, without decoration. -/
def body (doc : Span) : Text :=
  Decoration.strip language markers.tag
    ((bodyRanges (Token.all text) (regions language markers text).merged doc).flatMap text.slice)

def isTaggedDoc (span : Span) : Bool :=
  span.kind = .doc && (body language markers text span).trimStart.head? = some markers.tag

def isNarrative (doc : Span) : Bool :=
  (body language markers text doc).trimStart.head? ≠ some markers.tag &&
    !(body language markers text doc).allBlank

/-- The code that a region attaches to a block, empty if there is none: that of a snippet,
or the text of narrative documentation. -/
def code (span : Span) : Text :=
  match span.kind with
  | .snippet =>
      Snippet.normalize language markers
        (((span.inner? (Token.all text)).map text.slice).getD [])
  | .doc =>
      if isNarrative language markers text span then
        Snippet.normalize language markers (body language markers text span)
      else []

def taggedDocs : List Span :=
  (regions language markers text).docs.filter (isTaggedDoc language markers text)

def attachments : List Span :=
  (regions language markers text).inOrder.filter fun span => code language markers text span ≠ []

/-- The tagged documentation around a region, or else the last one that closes before it. -/
def owner? (span : Span) : Option Span :=
  ((taggedDocs language markers text).find? fun doc => doc.encloses span).or
    ((taggedDocs language markers text).filter fun doc => doc.closesBefore span).getLast?

theorem regions_wellNested : (regions language markers text).WellNested :=
  find_wellNested language markers (Token.all text)

variable {language markers text}

theorem code_of_isTaggedDoc {span : Span}
    (htagged : isTaggedDoc language markers text span = true) :
    code language markers text span = [] := by
  simp only [isTaggedDoc, Bool.and_eq_true, decide_eq_true_eq] at htagged
  simp [code, htagged.1, isNarrative, htagged.2]

theorem ownPieces_eq_pieceFrom (span : Span) :
    ownPieces language markers text (Token.all text) (regions language markers text).merged span =
      pieceFrom (isTaggedDoc language markers text) (body language markers text)
        (code language markers text) span := by
  cases hkind : span.kind with
  | snippet =>
      rw [ownPieces_snippet hkind, codePiece_eq, between]
      simp [pieceFrom, isTaggedDoc, code, hkind]
  | doc =>
      have hbody : bodyOf language markers text (Token.all text)
          (regions language markers text).merged span = body language markers text span := rfl
      rw [ownPieces_doc hkind, hbody, bodyPiece, isTagged, codePiece_eq]
      by_cases htagged : (body language markers text span).trimStart.head? = some markers.tag
      · simp [pieceFrom, isTaggedDoc, hkind, htagged]
      · cases hblank : (body language markers text span).allBlank <;>
          simp [pieceFrom, isTaggedDoc, code, isNarrative, hkind, htagged, hblank]

theorem filter_isTaggedDoc_inOrder :
    (regions language markers text).inOrder.filter (isTaggedDoc language markers text) =
      taggedDocs language markers text := by
  rw [taggedDocs, ← filter_doc_inOrder (regions_wellNested language markers text),
    List.filter_filter]
  refine List.filter_congr fun span _ => ?_
  cases hkind : decide (span.kind = .doc) <;> simp [isTaggedDoc, hkind]

theorem mem_docs_of_mem_taggedDocs {doc : Span} (hdoc : doc ∈ taggedDocs language markers text) :
    doc ∈ (regions language markers text).docs :=
  List.mem_of_mem_filter hdoc

private theorem mem_merged_of_mem_taggedDocs {doc : Span}
    (hdoc : doc ∈ taggedDocs language markers text) :
    doc ∈ (regions language markers text).merged :=
  mem_merged.mpr (.inl (mem_docs_of_mem_taggedDocs hdoc))

theorem pairwise_taggedDocs :
    (taggedDocs language markers text).Pairwise
      fun first second => first.start < second.start := by
  rw [← filter_isTaggedDoc_inOrder]
  exact (pairwise_inOrder (regions_wellNested language markers text)).filter _

private theorem lastTagged?_inOrder (span : Span) :
    lastTagged? (isTaggedDoc language markers text) (regions language markers text).inOrder span =
      ((taggedDocs language markers text).filter (·.start < span.start)).getLast? := by
  rw [lastTagged?, ← filter_isTaggedDoc_inOrder, List.filter_filter]
  congr 2
  funext doc
  exact Bool.and_comm _ _

private theorem getLast?_eq_some_of_forall_le {spans : List Span} {last : Span}
    (hordered : spans.Pairwise fun first second => first.start < second.start)
    (hlast : last ∈ spans) (hle : ∀ span ∈ spans, span.start ≤ last.start) :
    spans.getLast? = some last := by
  obtain ⟨before, after, rfl⟩ := List.append_of_mem hlast
  cases after with
  | nil => simp
  | cons next after =>
      have hlt : last.start < next.start :=
        (List.pairwise_cons.mp (List.pairwise_append.mp hordered).2.1).1 next (by simp)
      have hge := hle next (by simp)
      omega

private theorem owner?_eq_lastTagged? {span : Span}
    (hspan : span ∈ (regions language markers text).merged) :
    owner? language markers text span =
      lastTagged? (isTaggedDoc language markers text)
        (regions language markers text).inOrder span := by
  have hnested := regions_wellNested language markers text
  rw [lastTagged?_inOrder, owner?]
  cases hfind : (taggedDocs language markers text).find? fun doc => doc.encloses span with
  | none =>
      -- No tagged documentation is around the region, so those before it close before it.
      rw [Option.none_or]
      congr 1
      refine List.filter_congr fun doc hdoc => ?_
      have hfree : ¬ doc.encloses span = true := List.find?_eq_none.mp hfind doc hdoc
      rw [Bool.eq_iff_iff, decide_eq_true_eq]
      constructor
      · exact hnested.start_lt_of_closesBefore (mem_merged_of_mem_taggedDocs hdoc)
      · intro hlt
        exact (hnested.closesBefore_or_encloses (mem_docs_of_mem_taggedDocs hdoc) hspan
          hlt).resolve_right hfree
  | some doc =>
      have hdoc := List.mem_of_find?_eq_some hfind
      have hencloses : doc.encloses span = true := by
        simpa using List.find?_some hfind
      have hlt := hnested.start_lt_of_encloses (mem_merged_of_mem_taggedDocs hdoc) hspan hencloses
      rw [Option.some_or, eq_comm]
      refine getLast?_eq_some_of_forall_le (pairwise_taggedDocs.filter _)
        (List.mem_filter.mpr ⟨hdoc, by simpa using hlt⟩) fun other hother => ?_
      obtain ⟨hother, hbefore⟩ := List.mem_filter.mp hother
      exact hnested.start_le_of_encloses (mem_docs_of_mem_taggedDocs hdoc)
        (mem_docs_of_mem_taggedDocs hother) hspan hencloses (by simpa using hbefore)

theorem mem_taggedDocs_of_owner? {span doc : Span}
    (howner : owner? language markers text span = some doc) :
    doc ∈ taggedDocs language markers text := by
  rw [owner?, Option.or_eq_some_iff] at howner
  rcases howner with hfind | ⟨-, hlast⟩
  · exact List.mem_of_find?_eq_some hfind
  · exact List.mem_of_mem_filter (List.mem_of_getLast? hlast)

theorem owner?_eq_none_iff {span : Span} :
    owner? language markers text span = none ↔
      ∀ doc ∈ taggedDocs language markers text,
        doc.encloses span = false ∧ doc.closesBefore span = false := by
  rw [owner?, Option.or_eq_none_iff, List.find?_eq_none, List.getLast?_eq_none_iff,
    List.filter_eq_nil_iff]
  simp only [Bool.not_eq_true]
  exact ⟨fun h doc hdoc => ⟨h.1 doc hdoc, h.2 doc hdoc⟩,
    fun h => ⟨fun doc hdoc => (h doc hdoc).1, fun doc hdoc => (h doc hdoc).2⟩⟩

theorem codesWhere_inOrder (accept : Option Span → Bool) :
    codesWhere (isTaggedDoc language markers text) (code language markers text)
        (regions language markers text).inOrder accept =
      ((attachments language markers text).filter fun span =>
        accept (owner? language markers text span)).map (code language markers text) := by
  rw [codesWhere, attachments]
  congr 1
  refine List.filter_congr fun span hspan => ?_
  have hmem := (regions language markers text).inOrder_perm.mem_iff.mp
    (List.mem_of_mem_filter hspan)
  rw [owner?_eq_lastTagged? ((regions language markers text).merged_perm.mem_iff.mpr hmem)]

theorem pieces_eq_flatMap_pieceFrom :
    pieces language markers text (Token.all text) (regions language markers text).merged =
      (regions language markers text).inOrder.flatMap
        (pieceFrom (isTaggedDoc language markers text) (body language markers text)
          (code language markers text)) := by
  have hpieces : ownPieces language markers text (Token.all text)
      (regions language markers text).merged =
        pieceFrom (isTaggedDoc language markers text) (body language markers text)
          (code language markers text) := funext ownPieces_eq_pieceFrom
  rw [pieces_eq_flatMap_inOrder (regions_wellNested language markers text), hpieces]

theorem group_pieces_eq :
    (group (pieces language markers text (Token.all text)
      (regions language markers text).merged)).2 =
      (taggedDocs language markers text).map fun doc =>
        (body language markers text doc,
          ((attachments language markers text).filter fun span =>
            owner? language markers text span = some doc).map (code language markers text)) := by
  have hnested := regions_wellNested language markers text
  rw [pieces_eq_flatMap_pieceFrom,
    group_flatMap_pieceFrom (pairwise_inOrder hnested) fun _ _ => code_of_isTaggedDoc,
    filter_isTaggedDoc_inOrder]
  simp only [codesWhere_inOrder]

private theorem flatMap_codes_eq :
    ((taggedDocs language markers text).flatMap fun doc =>
      ((attachments language markers text).filter fun span =>
        owner? language markers text span = some doc).map (code language markers text)) =
      ((attachments language markers text).filter fun span =>
        (owner? language markers text span).isSome).map (code language markers text) := by
  have hcode : ∀ span ∈ (regions language markers text).inOrder,
      isTaggedDoc language markers text span = true → code language markers text span = [] :=
    fun _ _ => code_of_isTaggedDoc
  have hflat := flatMap_codesWhere_some
    (pairwise_inOrder (regions_wellNested language markers text)) hcode
  simpa only [codesWhere_inOrder, filter_isTaggedDoc_inOrder] using hflat

variable (language markers text)

/-- There is one block for each tagged documentation region, in order and with its body.
Every region that attaches code lands in the block of its owner and in no other, in the
order of the file, and is dropped exactly when it has none.  The code is numbered from zero
through all blocks. -/
theorem blocks_own_their_code :
    let blocks := RawBlock.all language markers text
    let docs := taggedDocs language markers text
    let attached := attachments language markers text
    let owner := owner? language markers text
    (blocks.map fun block => (block.body, block.snippets.map NumberedCode.text)) =
        (docs.map fun doc =>
          (body language markers text doc,
            (attached.filter fun span => owner span = some doc).map
              (code language markers text))) ∧
      (docs.Pairwise fun first second => first.start < second.start) ∧
      (attached.Pairwise fun first second => first.start < second.start) ∧
      (∀ span ∈ attached,
        (∀ doc, owner span = some doc → doc ∈ docs) ∧
        (owner span = none ↔
          ∀ doc ∈ docs, doc.encloses span = false ∧ doc.closesBefore span = false)) ∧
      (blocks.flatMap fun block => block.snippets.map NumberedCode.text) =
        (attached.filter fun span => (owner span).isSome).map (code language markers text) ∧
      (blocks.flatMap fun block => block.snippets.map NumberedCode.index) =
        List.range (attached.countP fun span => (owner span).isSome) := by
  intro blocks docs attached owner
  have hblocks : blocks = number 0 (docs.map fun doc =>
      (body language markers text doc,
        (attached.filter fun span => owner span = some doc).map (code language markers text))) :=
    congrArg (number 0) group_pieces_eq
  have hbodies : (blocks.map fun block => (block.body, block.snippets.map NumberedCode.text)) =
      (docs.map fun doc =>
        (body language markers text doc,
          (attached.filter fun span => owner span = some doc).map
            (code language markers text))) := by
    rw [hblocks, map_number]
  refine ⟨hbodies, pairwise_taggedDocs,
    (pairwise_inOrder (regions_wellNested language markers text)).filter _, ?_, ?_, ?_⟩
  · intro span _
    exact ⟨fun doc => mem_taggedDocs_of_owner?, owner?_eq_none_iff⟩
  · calc
      (blocks.flatMap fun block => block.snippets.map NumberedCode.text)
          = (blocks.map fun block =>
              (block.body, block.snippets.map NumberedCode.text)).flatMap Prod.snd := by
            rw [List.flatMap_map]
      _ = docs.flatMap fun doc =>
            (attached.filter fun span => owner span = some doc).map
              (code language markers text) := by
            rw [hbodies, List.flatMap_map]
      _ = _ := flatMap_codes_eq
  · rw [hblocks, flatMap_index_number, List.flatMap_map, flatMap_codes_eq, List.length_map,
      List.countP_eq_length_filter, List.range_eq_range']

/-- A snippet leaves the body that it stands in, and a remark goes to the block in front of it. -/
example :
    RawBlock.all LanguageTable.python .standard
        "#@ @n:x #@codestart@# b #@codeend@# @# #@ c @#".toList =
      [⟨" @n:x  ".toList, [⟨0, "b".toList⟩, ⟨1, "c".toList⟩]⟩] := by
  cbv

end Ownership

namespace RawBlock

open Extraction Ownership

theorem all_of_pieces {language : Language} {markers : Markers} {text : Text} {spans : List Span}
    {found : List Piece} (hmerged : (Regions.find language markers (Token.all text)).merged = spans)
    (hpieces : pieces language markers text (Token.all text) spans = found) :
    all language markers text = number 0 (group found).2 := by
  rw [all, hmerged, blocks, hpieces]

theorem map_body_all (language : Language) (markers : Markers) (text : Text) :
    (all language markers text).map body =
      (taggedDocs language markers text).map (Ownership.body language markers text) := by
  rw [all, blocks, map_body_number]
  change (group (pieces language markers text (Token.all text)
    (regions language markers text).merged)).2.map Prod.fst = _
  rw [group_pieces_eq, List.map_map]
  rfl

end RawBlock
end Docblock
