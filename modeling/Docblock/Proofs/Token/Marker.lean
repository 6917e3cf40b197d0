import Docblock.Language.Table
import Docblock.Markers
import Docblock.Proofs.Text.Replacement
import Docblock.Token
import Mathlib.Data.List.Basic

namespace Docblock.Token

def fronts (language : Language) : List Text :=
  [] :: language.blockStart :: language.lineComment.toList

private theorem mem_heads {language : Language} {word head : Text} :
    head ∈ heads language word ↔ ∃ front ∈ fronts language, word = front ++ head := by
  simp only [heads, fronts, List.mem_cons, List.mem_filterMap,
    List.isPrefixOf?_eq_some_iff_append_eq]
  constructor
  · rintro (rfl | ⟨front, hfront, rfl⟩)
    · exact ⟨[], .inl rfl, rfl⟩
    · exact ⟨front, .inr hfront, rfl⟩
  · rintro ⟨front, rfl | hfront, rfl⟩
    · exact .inl rfl
    · exact .inr ⟨front, hfront, rfl⟩

theorem isMarker_iff {language : Language} {marker word : Text} :
    isMarker language marker word = true ↔
      ∃ front ∈ fronts language, ∃ back ∈ [[], language.blockEnd],
        word = front ++ (marker ++ back) := by
  simp only [isMarker, List.any_eq_true, mem_heads, Bool.or_eq_true, decide_eq_true_eq,
    List.isSuffixOf?_eq_some_iff_append_eq, List.mem_cons, List.not_mem_nil, or_false]
  constructor
  · rintro ⟨head, ⟨front, hfront, rfl⟩, rfl | rfl⟩
    · exact ⟨front, hfront, [], .inl rfl, by simp⟩
    · exact ⟨front, hfront, language.blockEnd, .inr rfl, rfl⟩
  · rintro ⟨front, hfront, back, rfl | rfl, rfl⟩
    · exact ⟨marker ++ [], ⟨front, hfront, rfl⟩, .inl (by simp)⟩
    · exact ⟨marker ++ language.blockEnd, ⟨front, hfront, rfl⟩, .inr rfl⟩

theorem isMarker_self (language : Language) (marker : Text) :
    isMarker language marker marker = true :=
  isMarker_iff.mpr ⟨[], List.mem_cons_self, [], List.mem_cons_self, by simp⟩

def standardWords : List Text :=
  [Markers.standard.openBlock, Markers.standard.closeBlock, Markers.standard.codeStart,
    Markers.standard.codeEnd]

/-- A word that is none of the standard markers. -/
def Harmless (language : Language) (word : Text) : Prop :=
  ∀ marker ∈ standardWords, isMarker language marker word = false

theorem getLast?_fronts {language : Language}
    (hlanguage : language ∈ LanguageTable.builtin.languages) {front : Text}
    (hfront : front ∈ fronts language) :
    front.getLast? ≠ some '\\' ∧ front.getLast? ≠ some '@' := by
  have hfronts : ∀ language ∈ LanguageTable.builtin.languages, ∀ front ∈ fronts language,
      front.getLast? ≠ some '\\' ∧ front.getLast? ≠ some '@' := by
    decide
  exact hfronts language hlanguage front hfront

theorem harmless_of_not_mem {word : Text} (hmem : '#' ∉ word) (language : Language) :
    Harmless language word := by
  intro marker hmarker
  have hhash : ∀ marker ∈ standardWords, '#' ∈ marker := by decide
  rw [Bool.eq_false_iff]
  intro htrue
  obtain ⟨front, -, back, -, rfl⟩ := isMarker_iff.mp htrue
  apply hmem
  simp [hhash marker hmarker]

theorem exists_lead {marker : Text} (hmarker : marker ∈ standardWords) :
    ∃ lead tail, marker = lead ++ '@' :: tail ∧ (lead = [] ∨ lead = ['#']) := by
  simp only [standardWords, List.mem_cons, List.not_mem_nil, or_false] at hmarker
  rcases hmarker with rfl | rfl | rfl | rfl
  · exact ⟨['#'], [], rfl, .inr rfl⟩
  · exact ⟨[], ['#'], rfl, .inl rfl⟩
  · exact ⟨['#'], "codestart@#".toList, rfl, .inr rfl⟩
  · exact ⟨['#'], "codeend@#".toList, rfl, .inr rfl⟩

theorem harmless_of_shielded {language : Language}
    (hlanguage : language ∈ LanguageTable.builtin.languages) {word : Text}
    (hshielded : Text.Shielded '\\' '@' word) : Harmless language word := by
  intro marker hmarker
  rw [Bool.eq_false_iff]
  intro htrue
  obtain ⟨front, hfront, back, -, rfl⟩ := isMarker_iff.mp htrue
  obtain ⟨lead, tail, rfl, hlead⟩ := exists_lead hmarker
  have hescape := hshielded (front ++ lead) (tail ++ back) (by simp)
  rcases hlead with rfl | rfl
  · rw [List.append_nil] at hescape
    exact (getLast?_fronts hlanguage hfront).1 hescape
  · simp at hescape

end Docblock.Token
