import Docblock.Proofs.Span.Greedy
import Docblock.Proofs.Token.Marker

namespace Docblock

/-! An escape in front of a marker makes it an ordinary word, unless the language has a comment
symbol that takes the escape off again. -/

namespace Token

/-- The escape with what may stand between it and the last marker in an escaped marker. -/
def unescapingSymbols : List Text :=
  ["\\".toList, "\\#@codestart".toList, "\\#@codeend".toList]

private theorem mem_unescapingSymbols_of_prefix_drop {marker other : Text}
    (hmarker : marker ∈ standardWords)
    (hother : other ∈ standardWords) {count : Nat} (hcount : count ≤ marker.length)
    (hbegins : other <+: marker.drop count) :
    '\\' :: marker.take count ∈ unescapingSymbols := by
  have htable : ∀ marker ∈ standardWords, ∀ other ∈ standardWords,
      ∀ count ∈ List.range (marker.length + 1), other <+: marker.drop count →
        '\\' :: marker.take count ∈ unescapingSymbols := by
    decide
  exact htable marker hmarker other hother count (List.mem_range.mpr (by omega)) hbegins

private theorem mem_unescapingSymbols_of_isMarker {language : Language} {marker other : Text}
    (hmarker : marker ∈ standardWords) (hother : other ∈ standardWords)
    (hrecognized : isMarker language other (Markers.standard.escape :: marker) = true) :
    ∃ front ∈ fronts language, front ∈ unescapingSymbols := by
  obtain ⟨front, hfront, back, -, hword⟩ := isMarker_iff.mp hrecognized
  refine ⟨front, hfront, ?_⟩
  cases front with
  | nil =>
      obtain ⟨lead, tail, rfl, hlead⟩ := exists_lead hother
      rcases hlead with rfl | rfl
      · exact absurd (List.cons.inj hword).1 (by decide)
      · exact absurd (List.cons.inj hword).1 (by decide)
  | cons first rest =>
      rw [List.cons_append] at hword
      obtain ⟨rfl, hsplit⟩ := List.cons.inj hword
      have hcount : rest.length ≤ marker.length := by
        rw [hsplit, List.length_append]
        exact Nat.le_add_right _ _
      have hdrop : marker.drop rest.length = other ++ back := by
        rw [hsplit, List.drop_left]
      have htake : marker.take rest.length = rest := by
        rw [hsplit, List.take_left]
      have hmem := mem_unescapingSymbols_of_prefix_drop hmarker hother hcount ⟨back, hdrop.symm⟩
      rwa [htake] at hmem

private theorem exists_isMarker_of_mem_unescapingSymbols {language : Language} {front : Text}
    (hfront : front ∈ fronts language) (hmem : front ∈ unescapingSymbols) :
    ∃ marker ∈ standardWords, ∃ other ∈ standardWords,
      isMarker language other (Markers.standard.escape :: marker) = true := by
  have hleaves : ∀ front ∈ unescapingSymbols, ∃ marker ∈ standardWords, ∃ other ∈ standardWords,
      Markers.standard.escape :: marker = front ++ other := by
    decide
  obtain ⟨marker, hmarker, other, hother, hword⟩ := hleaves front hmem
  refine ⟨marker, hmarker, other, hother, isMarker_iff.mpr ⟨front, hfront, [], ?_, ?_⟩⟩
  · exact List.mem_cons_self
  · rw [hword, List.append_nil]

private theorem harmless_escaped_iff (language : Language) :
    (∀ marker ∈ standardWords, Harmless language (Markers.standard.escape :: marker)) ↔
      ∀ front ∈ fronts language, front ∉ unescapingSymbols := by
  constructor
  · intro hharmless front hfront hmem
    obtain ⟨marker, hmarker, other, hother, hrecognized⟩ :=
      exists_isMarker_of_mem_unescapingSymbols hfront hmem
    rw [hharmless marker hmarker other hother] at hrecognized
    contradiction
  · intro hfronts marker hmarker other hother
    rw [Bool.eq_false_iff]
    intro hrecognized
    obtain ⟨front, hfront, hmem⟩ := mem_unescapingSymbols_of_isMarker hmarker hother hrecognized
    exact hfronts front hfront hmem

end Token

namespace Span

open Docblock.Token

/-- A word that neither opens nor closes a region between standard markers, wherever it stands. -/
def Inert (language : Language) (word : Text) : Prop :=
  ∀ markers : MarkerPair, markers.start ∈ standardWords → markers.close ∈ standardWords →
    ∀ (excluded : List Span) (tokens : List Token) (index : Nat) (token : Token),
      tokens[index]? = some token → token.text = word →
        ∀ span ∈ pair language markers excluded tokens,
          span.start ≠ index ∧ span.close ≠ some index

private theorem inert_of_harmless {language : Language} {word : Text}
    (hharmless : Harmless language word) :
    Inert language word := by
  intro markers hstart hclose excluded tokens index token htoken hword span hspan
  obtain ⟨close, hspanClose, -, -, hstarter, hender⟩ :=
    (greedy_pair language markers excluded tokens).paired span hspan
  obtain ⟨-, opening, hopening, hopens⟩ := hstarter
  obtain ⟨-, closing, hclosing, -, hcloses⟩ := hender
  constructor
  · rintro rfl
    obtain rfl : token = opening := Option.some.inj (htoken.symm.trans hopening)
    rw [hword, hharmless markers.start hstart] at hopens
    contradiction
  · intro hindex
    obtain rfl : close = index := Option.some.inj (hspanClose.symm.trans hindex)
    obtain rfl : token = closing := Option.some.inj (htoken.symm.trans hclosing)
    rw [hword, hharmless markers.close hclose] at hcloses
    contradiction

/-- The escaped markers are no markers, and bound no region, exactly in the languages where
neither the block start nor the line comment is an unescaping symbol. -/
theorem escaped_marker_inert_iff (language : Language) :
    (∀ marker ∈ standardWords,
      Harmless language (Markers.standard.escape :: marker) ∧
        Inert language (Markers.standard.escape :: marker)) ↔
      ∀ symbol ∈ language.blockStart :: language.lineComment.toList,
        symbol ∉ unescapingSymbols := by
  have hnil : [] ∉ unescapingSymbols := by decide
  have hfronts : (∀ front ∈ fronts language, front ∉ unescapingSymbols) ↔
      ∀ symbol ∈ language.blockStart :: language.lineComment.toList,
        symbol ∉ unescapingSymbols := by
    rw [fronts, List.forall_mem_cons]
    exact and_iff_right hnil
  rw [← hfronts, ← harmless_escaped_iff]
  constructor
  · exact fun hboth marker hmarker => (hboth marker hmarker).1
  · intro hharmless marker hmarker
    exact ⟨hharmless marker hmarker, inert_of_harmless (hharmless marker hmarker)⟩

def backslashLanguage : Language :=
  ⟨"fs".toList, "(".toList, ")".toList, some "\\".toList, []⟩

/-- Where a backslash begins a line comment, an escaped end marker ends the snippet it stands
in, although nothing is wrong with the language. -/
theorem escaped_end_closes_snippet :
    backslashLanguage.fault? = none ∧
      isMarker backslashLanguage Markers.standard.codeEnd
        (Markers.standard.escape :: Markers.standard.codeEnd) = true ∧
      pair backslashLanguage Markers.standard.codePair []
          (Token.all "#@codestart@# a \\#@codeend@# b #@codeend@#".toList) =
        [⟨0, some 2, .snippet⟩] := by
  decide

end Span
end Docblock
