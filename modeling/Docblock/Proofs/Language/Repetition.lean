import Docblock.Language.Table
import Docblock.Proofs.Language.Symbols
import Mathlib.Data.List.Destutter

namespace Docblock.Language

/-! When symbols are arranged, those that are equal are told only where they are neighbours.  Main
statement: a symbol is arranged once unless it is written again behind another one with as many
bytes. -/

section EraseReps

variable {α : Type}

theorem exists_between {item : α} {items : List α} (hchain : items.IsChain (· ≠ ·))
    (htwice : [item, item].Sublist items) :
    ∃ other, other ≠ item ∧ [item, other, item].Sublist items := by
  induction items with
  | nil => cases htwice
  | cons first rest ih =>
      cases htwice with
      | cons _ hrest =>
          obtain ⟨other, hne, hbetween⟩ := ih hchain.tail hrest
          exact ⟨other, hne, hbetween.cons first⟩
      | cons_cons _ hrest =>
          cases rest with
          | nil => cases hrest
          | cons next rest =>
              have hne := (List.isChain_cons_cons.mp hchain).1
              cases hrest with
              | cons _ hrest => exact ⟨next, hne.symm, (hrest.cons_cons next).cons_cons item⟩
              | cons_cons => exact absurd rfl hne

variable [BEq α] [LawfulBEq α]

private theorem eraseReps_eq_destutter [DecidableEq α] (items : List α) :
    items.eraseReps = items.destutter (· ≠ ·) := by
  cases items with
  | nil => rfl
  | cons first rest =>
      induction rest generalizing first with
      | nil => rfl
      | cons next rest ih =>
          rw [eraseReps_cons_cons, ih, ih, List.destutter_cons_cons, List.destutter_cons',
            List.destutter_cons']
          by_cases heq : first = next
          · rw [if_pos (beq_iff_eq.mpr heq), if_neg (not_not_intro heq)]
          · rw [if_neg (mt beq_iff_eq.mp heq), if_pos heq]

theorem isChain_eraseReps [DecidableEq α] (items : List α) : items.eraseReps.IsChain (· ≠ ·) := by
  rw [eraseReps_eq_destutter]
  exact List.isChain_destutter (· ≠ ·) items

private theorem sublist_eraseReps {chosen items : List α} (hchain : chosen.IsChain (· ≠ ·))
    (hchosen : chosen.Sublist items) : chosen.Sublist items.eraseReps := by
  cases items with
  | nil => exact hchosen
  | cons first rest =>
      induction rest generalizing first chosen with
      | nil => exact hchosen
      | cons next rest ih =>
          rw [eraseReps_cons_cons]
          split
          · next heq =>
              obtain rfl := eq_of_beq heq
              apply ih hchain first
              cases hchosen with
              | cons _ hrest => exact hrest
              | cons_cons _ hrest =>
                  cases hrest with
                  | cons _ hrest => exact hrest.cons_cons first
                  | cons_cons => exact absurd rfl (List.isChain_cons_cons.mp hchain).1
          · cases hchosen with
            | cons _ hrest => exact (ih hchain next hrest).cons first
            | cons_cons _ hrest => exact (ih hchain.tail next hrest).cons_cons first

end EraseReps

private theorem filter_mergeSort (symbols : List Text) (length : Nat) :
    (symbols.mergeSort fun left right => right.byteLength ≤ left.byteLength).filter
        (fun symbol => symbol.byteLength = length) =
      symbols.filter fun symbol => symbol.byteLength = length := by
  have hsorted : (symbols.filter fun symbol => symbol.byteLength = length).Pairwise
      fun left right => decide (right.byteLength ≤ left.byteLength) = true := by
    refine List.pairwise_of_forall_mem_list fun left hleft right hright => ?_
    have hleft := of_decide_eq_true (List.mem_filter.mp hleft).2
    have hright := of_decide_eq_true (List.mem_filter.mp hright).2
    exact decide_eq_true (Nat.le_of_eq (hright.trans hleft.symm))
  have hkept := (List.sublist_mergeSort longest_first_trans longest_first_total hsorted
    List.filter_sublist).filter fun symbol => symbol.byteLength = length
  rw [List.filter_filter, List.filter_congr fun _ _ => Bool.and_self _] at hkept
  refine (hkept.eq_of_length ?_).symm
  exact ((List.mergeSort_perm symbols _).filter _).length_eq.symm

private theorem sublist_mergeSort_iff {symbols chosen : List Text} {length : Nat}
    (hlength : ∀ symbol ∈ chosen, symbol.byteLength = length) :
    chosen.Sublist (symbols.mergeSort fun left right => right.byteLength ≤ left.byteLength) ↔
      chosen.Sublist symbols := by
  have hchosen : chosen.filter (fun symbol => symbol.byteLength = length) = chosen :=
    List.filter_eq_self.mpr fun symbol hmem => decide_eq_true (hlength symbol hmem)
  constructor
  · intro hsorted
    have hkept := hsorted.filter fun symbol => symbol.byteLength = length
    rw [hchosen, filter_mergeSort] at hkept
    exact hkept.trans List.filter_sublist
  · intro hwritten
    have hkept := hwritten.filter fun symbol => symbol.byteLength = length
    rw [hchosen, ← filter_mergeSort] at hkept
    exact hkept.trans List.filter_sublist

theorem sublist_arrange_iff {symbols chosen : List Text} {length : Nat}
    (hlength : ∀ symbol ∈ chosen, symbol.byteLength = length)
    (hchain : chosen.IsChain (· ≠ ·)) :
    chosen.Sublist (arrange symbols) ↔ chosen.Sublist symbols := by
  rw [arrange, ← @sublist_mergeSort_iff symbols chosen length hlength]
  exact ⟨fun harranged => harranged.trans (eraseReps_sublist _), sublist_eraseReps hchain⟩

/-- A symbol is written again behind another one with as many bytes. -/
def Returns (symbols : List Text) (symbol : Text) : Prop :=
  ∃ other, other ≠ symbol ∧ other.byteLength = symbol.byteLength ∧
    [symbol, other, symbol].Sublist symbols

theorem returns_iff_exists_mem {symbols : List Text} {symbol : Text} :
    Returns symbols symbol ↔ ∃ other ∈ symbols, other ≠ symbol ∧
      other.byteLength = symbol.byteLength ∧ [symbol, other, symbol].Sublist symbols := by
  constructor
  · rintro ⟨other, hne, hlength, hsub⟩
    exact ⟨other, hsub.subset (by simp), hne, hlength, hsub⟩
  · rintro ⟨other, -, hreturns⟩
    exact ⟨other, hreturns⟩

instance (symbols : List Text) (symbol : Text) : Decidable (Returns symbols symbol) :=
  decidable_of_iff' _ returns_iff_exists_mem

section Triple

variable {symbol other : Text}

theorem isChain_triple (hne : other ≠ symbol) : [symbol, other, symbol].IsChain (· ≠ ·) :=
  .cons_cons hne.symm (.cons_cons hne (.singleton symbol))

theorem byteLength_triple (hlength : other.byteLength = symbol.byteLength) :
    ∀ chosen ∈ [symbol, other, symbol], chosen.byteLength = symbol.byteLength := by
  simp [hlength]

end Triple

private theorem two_le_count_arrange_iff {symbols : List Text} {symbol : Text} :
    2 ≤ (arrange symbols).count symbol ↔ Returns symbols symbol := by
  rw [← List.replicate_sublist_iff]
  constructor
  · intro htwice
    obtain ⟨other, hne, hbetween⟩ := exists_between (isChain_eraseReps _) htwice
    have hlength : other.byteLength = symbol.byteLength := by
      have hsorted := (pairwise_arrange symbols).sublist hbetween
      obtain ⟨hbefore, hbehind⟩ := List.pairwise_cons.mp hsorted
      exact Nat.le_antisymm (hbefore other List.mem_cons_self)
        (List.rel_of_pairwise_cons hbehind (List.mem_singleton_self symbol))
    exact ⟨other, hne, hlength,
      (sublist_arrange_iff (byteLength_triple hlength) (isChain_triple hne)).mp hbetween⟩
  · rintro ⟨other, hne, hlength, hreturns⟩
    have hbetween :=
      (sublist_arrange_iff (byteLength_triple hlength) (isChain_triple hne)).mpr hreturns
    exact (by simp : [symbol, symbol].Sublist [symbol, other, symbol]).trans hbetween

theorem count_arrange_eq_one_iff {symbols : List Text} {symbol : Text} :
    (arrange symbols).count symbol = 1 ↔ symbol ∈ symbols ∧ ¬ Returns symbols symbol := by
  rw [← mem_arrange, ← List.one_le_count_iff, ← two_le_count_arrange_iff]
  omega

private theorem returns_append_arrange {before symbols : List Text} {symbol : Text} :
    Returns (before ++ arrange symbols) symbol ↔ Returns (before ++ symbols) symbol := by
  unfold Returns
  refine exists_congr fun other => and_congr_right fun hne => and_congr_right fun hlength => ?_
  rw [List.sublist_append_iff, List.sublist_append_iff]
  refine exists_congr fun front => exists_congr fun back => and_congr_right fun hsplit => ?_
  have hchain := isChain_triple hne
  have hsame := byteLength_triple hlength
  rw [hsplit] at hchain hsame
  rw [sublist_arrange_iff (fun chosen hmem => hsame chosen (List.mem_append_right front hmem))
    hchain.right_of_append]

/-- The symbols that are written, longest first, and each of them once unless it returns. -/
structure Arranges (symbols arranged : List Text) : Prop where
  mem_iff : ∀ symbol, symbol ∈ arranged ↔ symbol ∈ symbols
  longest_first : arranged.Pairwise fun left right => right.byteLength ≤ left.byteLength
  once_iff : ∀ symbol, arranged.count symbol = 1 ↔ symbol ∈ symbols ∧ ¬ Returns symbols symbol

theorem Arranges.nodup_iff {symbols arranged : List Text} (harranges : Arranges symbols arranged) :
    arranged.Nodup ↔ ∀ symbol ∈ symbols, ¬ Returns symbols symbol := by
  rw [List.nodup_iff_count_eq_one]
  refine forall_congr' fun symbol => ?_
  rw [harranges.mem_iff, harranges.once_iff]
  exact ⟨fun honce hmem => (honce hmem).2, fun hreturns hmem => ⟨hmem, hreturns hmem⟩⟩

theorem arranges_arrange (symbols : List Text) : Arranges symbols (arrange symbols) where
  mem_iff _ := mem_arrange
  longest_first := pairwise_arrange symbols
  once_iff _ := count_arrange_eq_one_iff

theorem arranges_remnantSymbols (language : Language) :
    Arranges language.symbols language.remnantSymbols where
  mem_iff _ := mem_remnantSymbols
  longest_first := pairwise_remnantSymbols language
  once_iff symbol := by
    have hreturns := @returns_append_arrange [language.blockStart, language.blockEnd]
      (language.lineComment.toList ++ language.noise) symbol
    rw [remnantSymbols, count_arrange_eq_one_iff, ← mem_arrange, ← remnantSymbols,
      mem_remnantSymbols]
    exact and_congr_right fun _ => not_congr hreturns

theorem nodup_of_mem_builtinLanguages {language : Language}
    (hmem : language ∈ LanguageTable.builtinLanguages) :
    language.decorationSymbols.Nodup ∧ language.remnantSymbols.Nodup := by
  have hreturns : ∀ language ∈ LanguageTable.builtinLanguages,
      (∀ symbol ∈ language.lineComment.toList ++ language.noise,
        ¬ Returns (language.lineComment.toList ++ language.noise) symbol) ∧
      ∀ symbol ∈ language.symbols, ¬ Returns language.symbols symbol := by
    decide +kernel
  exact ⟨(arranges_arrange _).nodup_iff.mpr (hreturns language hmem).1,
    (arranges_remnantSymbols language).nodup_iff.mpr (hreturns language hmem).2⟩

/-- The symbols of a language are arranged longest first, and nothing else is.  One is among them
once exactly if it is not written again behind another one with as many bytes. -/
theorem symbols_arranged_once_iff (language : Language) :
    Arranges (language.lineComment.toList ++ language.noise) language.decorationSymbols ∧
      Arranges language.symbols language.remnantSymbols :=
  ⟨arranges_arrange _, arranges_remnantSymbols language⟩

/-- Line comments of two dashes, which stand among the decoration once more, behind two stars. -/
def dashedTwice : Language where
  extension := "sql".toList
  blockStart := "/*".toList
  blockEnd := "*/".toList
  lineComment := some "--".toList
  noise := ["**".toList, "--".toList]

/-- Two symbols that are equal both stay, as the one between them has as many bytes. -/
theorem dashes_arranged_twice :
    dashedTwice.fault? = none ∧
      dashedTwice.decorationSymbols = ["--".toList, "**".toList, "--".toList] ∧
      dashedTwice.remnantSymbols =
        ["/*".toList, "*/".toList, "--".toList, "**".toList, "--".toList] ∧
      ¬ dashedTwice.decorationSymbols.Nodup ∧ ¬ dashedTwice.remnantSymbols.Nodup := by
  have hdecoration :
      dashedTwice.decorationSymbols = ["--".toList, "**".toList, "--".toList] := by
    rw [decorationSymbols, arrange, List.mergeSort_of_pairwise (by decide)]
    decide
  have hremnants : dashedTwice.remnantSymbols =
      ["/*".toList, "*/".toList, "--".toList, "**".toList, "--".toList] := by
    rw [remnantSymbols, hdecoration, arrange, List.mergeSort_of_pairwise (by decide)]
    decide
  refine ⟨by decide +kernel, hdecoration, hremnants, ?_, ?_⟩
  · rw [hdecoration]
    decide
  · rw [hremnants]
    decide

end Docblock.Language
