import Docblock.RawBlock
import Mathlib.Data.List.Basic

namespace Docblock

namespace Span

private theorem inner?_of_split (before inner after : List Token) (start close : Token)
    (kind : SpanKind) :
    inner? (before ++ start :: (inner ++ close :: after))
        ⟨before.length, some (before.length + 1 + inner.length), kind⟩ =
      some ⟨start.range.stop, close.range.start⟩ := by
  have hclose : (before ++ start :: (inner ++ close :: after))[before.length + 1 + inner.length]? =
      some close := by
    rw [List.getElem?_append_right (by omega), Nat.add_assoc, Nat.add_sub_cancel_left,
      Nat.add_comm 1, List.getElem?_cons_succ, List.getElem?_append_right (Nat.le_refl _)]
    simp
  simp [inner?, hclose]

end Span

namespace Extraction

theorem between_of_split {left body right : Text} {before inner after : List Token}
    {start close : Token} (hstart : start.range.stop = left.byteLength)
    (hclose : close.range.start = left.byteLength + body.byteLength) (kind : SpanKind) :
    between (left ++ body ++ right) (before ++ start :: (inner ++ close :: after))
        ⟨before.length, some (before.length + 1 + inner.length), kind⟩ = body := by
  rw [between, Span.inner?_of_split, Option.map_some, Option.getD_some, hstart, hclose]
  exact Text.slice_append left body right

private theorem flatMap_slice_bodyRanges {spans : List Span} {doc : Span}
    (hnested : nested spans doc = []) (text : Text) (tokens : List Token) :
    (bodyRanges tokens spans doc).flatMap text.slice = between text tokens doc := by
  rw [bodyRanges, between, hnested]
  cases doc.inner? tokens with
  | none => rfl
  | some inner => simp [keptRanges]

theorem piecesOf_doc {spans : List Span} {doc : Span} (hkind : doc.kind = .doc)
    (hnested : nested spans doc = []) (language : Language) (markers : Markers) (text : Text)
    (tokens : List Token) :
    piecesOf language markers text tokens spans doc =
      bodyPiece language markers
        (Decoration.strip language markers.tag (between text tokens doc)) := by
  simp only [piecesOf, hkind, hnested, bodyOf, flatMap_slice_bodyRanges hnested]
  exact List.append_nil _

theorem piecesOf_snippet {spans : List Span} {snippet : Span} (hkind : snippet.kind = .snippet)
    (hnested : isNested spans snippet = false) (language : Language) (markers : Markers)
    (text : Text) (tokens : List Token) :
    piecesOf language markers text tokens spans snippet =
      codePiece language markers (between text tokens snippet) := by
  simp [piecesOf, hkind, hnested]

private theorem nested_eq_nil {spans : List Span} (hkinds : ∀ span ∈ spans, span.kind = .doc)
    (doc : Span) : nested spans doc = [] := by
  rw [nested, List.filter_eq_nil_iff]
  intro span hspan
  simp [hkinds span hspan]

theorem pieces_of_docs {spans : List Span} (hkinds : ∀ span ∈ spans, span.kind = .doc)
    (language : Language) (markers : Markers) (text : Text) (tokens : List Token) :
    pieces language markers text tokens spans =
      (spans.map (between text tokens)).flatMap fun body =>
        bodyPiece language markers (Decoration.strip language markers.tag body) := by
  rw [pieces, List.flatMap_map]
  apply List.flatMap_congr
  intro span hspan
  exact piecesOf_doc (hkinds span hspan) (nested_eq_nil hkinds span) language markers text tokens

theorem group_map_opening (bodies : List Text) :
    group (bodies.map Piece.opening) = ([], bodies.map fun body => (body, [])) := by
  induction bodies with
  | nil => rfl
  | cons body rest ih => simp [group, ih]

theorem number_map_nil (next : Nat) (bodies : List Text) :
    number next (bodies.map fun body => (body, [])) = bodies.map fun body => ⟨body, []⟩ := by
  induction bodies generalizing next with
  | nil => rfl
  | cons body rest ih => simp [number, ih]

end Extraction
end Docblock
