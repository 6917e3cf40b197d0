import Docblock.Proofs.Extraction.Ownership
import Docblock.Proofs.Extraction.Relocation

namespace Docblock

/-! Documentation around a snippet does not depend on what stands inside the snippet.  A
text is compared with the one that has a single blank there: the tokens of the code are
inserted at one place, and what comes after them moves on. -/

def widen (bound count i : Nat) : Nat :=
  if i < bound then i else i + count

theorem widen_of_lt {bound i : Nat} (hlt : i < bound) (count : Nat) : widen bound count i = i :=
  if_pos hlt

theorem widen_of_le {bound i : Nat} (hle : bound ≤ i) (count : Nat) :
    widen bound count i = i + count :=
  if_neg (Nat.not_lt.mpr hle)

theorem strictMono_widen (bound count : Nat) : StrictMono (widen bound count) := by
  intro i j hlt
  unfold widen
  split <;> split <;> omega

namespace Span

variable {language : Language} {markers : MarkerPair}

private theorem pair_insert {excluded excluded' : List Span}
    {left skipped right right' : List Token}
    (hlive : ∀ i, Live excluded' (widen left.length skipped.length i) ↔ Live excluded i)
    (htexts : right'.map Token.text = right.map Token.text)
    (hidle : ∀ opened, opened = openFrom language markers excluded' none 0 left →
      ∀ entry ∈ skipped.zipIdx left.length,
        Idle language markers excluded' opened entry.2 entry.1) :
    pair language markers excluded' (left ++ (skipped ++ right')) =
      (pair language markers excluded (left ++ right)).map
        (reindex (widen left.length skipped.length)) := by
  have hleft : Renumbered (widen left.length skipped.length) excluded excluded' 0 0 left left := by
    refine ⟨rfl, fun i hi => ?_, fun i hi => ?_⟩
    · rw [Nat.zero_add, widen_of_lt hi]
    · rw [Nat.zero_add, ← hlive, widen_of_lt hi]
  have hright : Renumbered (widen left.length skipped.length) excluded excluded' left.length
      (left.length + skipped.length) right right' := by
    refine ⟨htexts, fun i _ => ?_, fun i _ => ?_⟩
    · rw [widen_of_le (Nat.le_add_right _ _), Nat.add_right_comm]
    · rw [← hlive, widen_of_le (Nat.le_add_right _ _), Nat.add_right_comm]
  have hpairs := pairFrom_renumbered language markers none hleft
  have hstate := openFrom_renumbered language markers none hleft
  rw [Option.map_none] at hpairs hstate
  rw [pair, pairFrom_append, Nat.zero_add, pairFrom_append_of_idle _ (hidle _ rfl), hpairs, hstate,
    pairFrom_renumbered language markers _ hright, pair, pairFrom_append, Nat.zero_add,
    List.map_append]

end Span

namespace Regions

open Docblock.Span

variable {language : Language} {markers : Markers}

def reindex (index : Nat → Nat) (regions : Regions) : Regions where
  snippets := regions.snippets.map (Span.reindex index)
  docs := regions.docs.map (Span.reindex index)

theorem mem_snippets_of_leftOpen {left : List Token} {closing : Token} {start : Nat}
    (later : List Token) (hopen : leftOpen language markers.codePair [] left = some start)
    (hstart : Token.isMarker language markers.codeStart closing.text = false)
    (hclose : Token.isMarker language markers.codeEnd closing.text = true) :
    start < left.length ∧
      ⟨start, some left.length, .snippet⟩ ∈
        (find language markers (left ++ closing :: later)).snippets := by
  have hmem : ⟨start, some left.length, .snippet⟩ ∈
      (find language markers (left ++ closing :: later)).snippets := by
    rw [leftOpen] at hopen
    rw [find, pair, pairFrom_append, hopen, Nat.zero_add,
      pairFrom_cons_close later (live_nil _) hstart hclose]
    exact List.mem_append_right _ List.mem_cons_self
  obtain ⟨close, hcloses, hlt, -⟩ := close_of_mem_pair hmem
  obtain rfl : left.length = close := Option.some.inj hcloses
  exact ⟨hlt, hmem⟩

theorem find_insert {left skipped later right' : List Token} {closing : Token} {start : Nat}
    (hopen : leftOpen language markers.codePair [] left = some start)
    (hstart : Token.isMarker language markers.codeStart closing.text = false)
    (hclose : Token.isMarker language markers.codeEnd closing.text = true)
    (hskipped : ∀ token ∈ skipped, Token.isMarker language markers.codeEnd token.text = false)
    (htexts : right'.map Token.text = (closing :: later).map Token.text) :
    find language markers (left ++ (skipped ++ right')) =
      (find language markers (left ++ closing :: later)).reindex
        (widen left.length skipped.length) := by
  have hmono := strictMono_widen left.length skipped.length
  have hsnippets : pair language markers.codePair [] (left ++ (skipped ++ right')) =
      (find language markers (left ++ closing :: later)).snippets.map
        (Span.reindex (widen left.length skipped.length)) := by
    refine pair_insert (fun _ => Iff.of_eq rfl) htexts ?_
    rintro opened rfl ⟨token, i⟩ hentry
    rw [← leftOpen, hopen]
    exact idle_of_not_close (hskipped token (List.fst_mem_of_mem_zipIdx hentry)) start i
  obtain ⟨hlt, hmem⟩ := mem_snippets_of_leftOpen later hopen hstart hclose
  rw [find, hsnippets, reindex]
  congr 1
  -- For the documentation the inserted tokens are excluded: the snippet covers them.
  refine pair_insert (fun _ => live_reindex hmono) htexts ?_
  rintro opened - ⟨token, i⟩ hentry
  refine idle_of_covers (List.mem_map_of_mem hmem) ?_ opened token
  have hge : left.length ≤ i := List.le_snd_of_mem_zipIdx hentry
  have hbound : i < skipped.length + left.length := List.snd_lt_of_mem_zipIdx hentry
  simp only [covers, Span.reindex, Option.map_some, Option.any_some, widen_of_lt hlt,
    widen_of_le (Nat.le_refl _), Bool.and_eq_true, decide_eq_true_eq]
  omega

end Regions

namespace Extraction

open Docblock.Span Docblock.Regions

/-- A text that may stand inside a snippet: blank at both ends, and without a word that
ends the snippet. -/
structure CodeText (language : Language) (markers : Markers) (text : Text) : Prop where
  head_blank : text.head?.any isBlank = true
  last_blank : text.getLast?.any isBlank = true
  not_codeEnd : ∀ token ∈ Token.all text,
    Token.isMarker language markers.codeEnd token.text = false

private theorem codeText_blank (language : Language) (markers : Markers) :
    CodeText language markers [' '] where
  head_blank := rfl
  last_blank := rfl
  not_codeEnd := by simp [show Token.all [' '] = [] from rfl]

section Parts

variable {language : Language} {markers : Markers} {inner : Text}

theorem all_inside (hinner : CodeText language markers inner) (pre post : Text) :
    Token.all (pre ++ inner ++ post) =
      Token.all pre ++ ((Token.all inner).map (Token.relocate (pre.byteLength + ·)) ++
        (Token.all post).map (Token.relocate (Text.byteLength (pre ++ inner) + ·))) := by
  rw [Token.all_append (Token.apart_of_blank_getLast? hinner.last_blank pre post),
    Token.all_append (Token.apart_of_blank_head? hinner.head_blank pre), List.append_assoc]

theorem all_around (language : Language) (markers : Markers) (pre post : Text) :
    Token.all (pre ++ [' '] ++ post) =
      Token.all pre ++
        (Token.all post).map (Token.relocate (Text.byteLength (pre ++ [' ']) + ·)) := by
  rw [all_inside (codeText_blank language markers)]
  rfl

/-- A text that leaves a snippet open, and one whose first word closes it. -/
structure Seam (language : Language) (markers : Markers) (pre post : Text) : Prop where
  opens : ∃ start, leftOpen language markers.codePair [] (Token.all pre) = some start
  closes : ∃ closing later, Token.all post = closing :: later ∧
    Token.isMarker language markers.codeStart closing.text = false ∧
    Token.isMarker language markers.codeEnd closing.text = true

variable {pre post : Text}

theorem Seam.exists_snippet (hseam : Seam language markers pre post) :
    ∃ start < (Token.all pre).length, ⟨start, some (Token.all pre).length, .snippet⟩ ∈
      (find language markers (Token.all (pre ++ [' '] ++ post))).snippets := by
  obtain ⟨start, hopen⟩ := hseam.opens
  obtain ⟨closing, later, hpost, hstart, hclose⟩ := hseam.closes
  rw [all_around language markers, hpost, List.map_cons]
  exact ⟨start, mem_snippets_of_leftOpen _ hopen hstart hclose⟩

theorem find_inside (hseam : Seam language markers pre post)
    (hinner : CodeText language markers inner) :
    find language markers (Token.all (pre ++ inner ++ post)) =
      (find language markers (Token.all (pre ++ [' '] ++ post))).reindex
        (widen (Token.all pre).length (Token.all inner).length) := by
  obtain ⟨start, hopen⟩ := hseam.opens
  obtain ⟨closing, later, hpost, hstart, hclose⟩ := hseam.closes
  have hlength : ((Token.all inner).map (Token.relocate (pre.byteLength + ·))).length =
      (Token.all inner).length := List.length_map _
  rw [all_inside hinner, all_around language markers, hpost, List.map_cons, ← hlength]
  refine find_insert hopen hstart hclose ?_ ?_
  · intro token htoken
    obtain ⟨other, hother, rfl⟩ := List.mem_map.mp htoken
    exact hinner.not_codeEnd other hother
  · simp [Token.relocate, Function.comp_def]

def offsetInside (pre inner : Text) : Nat → Nat :=
  widen (pre.byteLength + 1) (inner.byteLength - 1)

theorem offsetInside_of_le {offset : Nat} (hle : offset ≤ pre.byteLength) (inner : Text) :
    offsetInside pre inner offset = offset :=
  widen_of_lt (Nat.lt_succ_of_le hle) _

theorem offsetInside_add (hinner : CodeText language markers inner) (pre : Text) (offset : Nat) :
    offsetInside pre inner (Text.byteLength (pre ++ [' ']) + offset) =
      Text.byteLength (pre ++ inner) + offset := by
  have hpositive : 0 < inner.byteLength := by
    have hhead := hinner.head_blank
    cases inner with
    | nil => contradiction
    | cons c rest =>
        have hsize := c.utf8Size_pos
        rw [Text.byteLength_cons]
        omega
  have hblank : Text.byteLength [' '] = 1 := rfl
  rw [Text.byteLength_append, Text.byteLength_append, hblank, offsetInside,
    widen_of_le (Nat.le_add_right _ _)]
  omega

private theorem relocate_offsetInside {token : Token} (hmem : token ∈ Token.all pre)
    (inner : Text) :
    token.relocate (offsetInside pre inner) = token := by
  rw [Token.relocate, ByteRange.relocate, offsetInside_of_le (Token.isBoundary_start hmem).le,
    offsetInside_of_le (Token.isBoundary_stop hmem).le]

private theorem relocated_inside (hinner : CodeText language markers inner) (pre post : Text) :
    Token.Relocated (widen (Token.all pre).length (Token.all inner).length)
      (offsetInside pre inner) (Token.all (pre ++ [' '] ++ post))
      (Token.all (pre ++ inner ++ post)) := by
  intro i token htoken
  rw [all_around language markers] at htoken
  rw [all_inside hinner]
  by_cases hi : i < (Token.all pre).length
  · rw [List.getElem?_append_left hi] at htoken
    rw [widen_of_lt hi, List.getElem?_append_left hi, htoken,
      relocate_offsetInside (List.mem_of_getElem? htoken)]
  · obtain ⟨k, rfl⟩ := Nat.exists_eq_add_of_le (Nat.not_lt.mp hi)
    rw [List.getElem?_append_right (Nat.le_add_right _ _), Nat.add_sub_cancel_left,
      List.getElem?_map, Option.map_eq_some_iff] at htoken
    obtain ⟨other, hother, rfl⟩ := htoken
    rw [widen_of_le (Nat.le_add_right _ _), Nat.add_assoc,
      List.getElem?_append_right (Nat.le_add_right _ _), Nat.add_sub_cancel_left,
      List.getElem?_append_right (by simp), List.length_map, Nat.add_sub_cancel, List.getElem?_map,
      hother, Option.map_some]
    simp only [Token.relocate, ByteRange.relocate, offsetInside_add hinner]

private theorem slice_inside (hinner : CodeText language markers inner) {i j : Nat}
    {range : ByteRange}
    (hgap : Gap (Token.all (pre ++ [' '] ++ post)) i j range)
    (hside : (Token.all pre).length ≤ i ∨ j < (Token.all pre).length) :
    Text.slice (pre ++ inner ++ post) (range.relocate (offsetInside pre inner)) =
      Text.slice (pre ++ [' '] ++ post) range := by
  obtain ⟨hlt, left, right, hleft, hright, rfl⟩ := hgap
  rw [all_around language markers] at hleft hright
  rcases hside with hle | hj
  · rw [List.getElem?_append_right hle, List.getElem?_map, Option.map_eq_some_iff] at hleft
    rw [List.getElem?_append_right (by omega), List.getElem?_map, Option.map_eq_some_iff] at hright
    obtain ⟨left, -, rfl⟩ := hleft
    obtain ⟨right, -, rfl⟩ := hright
    have hpost := Text.slice_append_right (pre ++ inner) post ⟨left.range.stop, right.range.start⟩
    have hblank := Text.slice_append_right (pre ++ [' ']) post ⟨left.range.stop, right.range.start⟩
    simp only [ByteRange.relocate, Token.relocate, offsetInside_add hinner] at hpost hblank ⊢
    rw [hpost, hblank]
  · rw [List.getElem?_append_left (by omega)] at hleft
    rw [List.getElem?_append_left hj] at hright
    have hstart := Token.isBoundary_stop (List.mem_of_getElem? hleft)
    have hstop := (Token.isBoundary_start (List.mem_of_getElem? hright)).le
    rw [ByteRange.relocate, offsetInside_of_le hstart.le, offsetInside_of_le hstop,
      List.append_assoc, List.append_assoc, Text.slice_append_left hstart hstop,
      Text.slice_append_left hstart hstop]

private theorem body_inside (hseam : Seam language markers pre post)
    (hinner : CodeText language markers inner) {doc : Span}
    (hdoc : doc ∈ (find language markers (Token.all (pre ++ [' '] ++ post))).docs) :
    Ownership.body language markers (pre ++ inner ++ post)
        (doc.reindex (widen (Token.all pre).length (Token.all inner).length)) =
      Ownership.body language markers (pre ++ [' '] ++ post) doc := by
  have hmono := strictMono_widen (Token.all pre).length (Token.all inner).length
  refine bodyOf_reindex hmono (relocated_inside hinner pre post) hdoc ?_ ?_
  · rw [find_inside hseam hinner, Regions.reindex, List.filter_map]
    congr 2
    funext snippet
    exact reindex_encloses hmono doc snippet
  · intro range hrange
    obtain ⟨i, j, hgap, hsides⟩ := gap_of_mem_bodyRanges hdoc hrange
    refine slice_inside hinner hgap ?_
    obtain ⟨start, hlt, hsnippet⟩ := hseam.exists_snippet
    rcases hsides _ hsnippet _ rfl with hle | hle
    · exact .inl hle
    · exact .inr (Nat.lt_of_le_of_lt hle hlt)

end Parts

end Extraction

namespace RawBlock

open Extraction Ownership

private theorem map_body_all_eq_filter (language : Language) (markers : Markers) (text : Text) :
    (all language markers text).map body =
      ((regions language markers text).docs.map (Ownership.body language markers text)).filter
        (isTagged markers) := by
  rw [map_body_all, taggedDocs, List.filter_map]
  congr 1
  refine List.filter_congr fun doc hdoc => ?_
  have hkind := ((regions_wellNested language markers text).doc_paired doc hdoc).kind_eq
  rw [isTaggedDoc, hkind]
  rfl

/-- The bodies of a text are those of the text with one blank inside the snippet. -/
theorem map_body_all_inside {language : Language} {markers : Markers} {pre inner post : Text}
    (hseam : Seam language markers pre post) (hinner : CodeText language markers inner) :
    (all language markers (pre ++ inner ++ post)).map body =
      (all language markers (pre ++ [' '] ++ post)).map body := by
  rw [map_body_all_eq_filter, map_body_all_eq_filter, regions, find_inside hseam hinner,
    Regions.reindex, List.map_map]
  congr 1
  exact List.map_congr_left fun doc hdoc => body_inside hseam hinner hdoc

end RawBlock
end Docblock
