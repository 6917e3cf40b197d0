import Docblock.Language.Basic

namespace Docblock.Language

section EraseReps

variable {α : Type} [BEq α]

private theorem eraseReps_loop (last : α) (rest found : List α) :
    List.eraseRepsBy.loop (· == ·) last rest found =
      found.reverse ++ (last :: rest).eraseReps := by
  induction rest generalizing last found with
  | nil => simp [List.eraseReps, List.eraseRepsBy, List.eraseRepsBy.loop]
  | cons next rest ih =>
      rw [List.eraseReps, List.eraseRepsBy, List.eraseRepsBy.loop, List.eraseRepsBy.loop]
      split
      · rw [ih, ih]
        rfl
      · rw [ih, ih next, List.reverse_cons, List.append_assoc]
        rfl

theorem eraseReps_cons_cons (first next : α) (rest : List α) :
    (first :: next :: rest).eraseReps =
      if first == next then (first :: rest).eraseReps
      else first :: (next :: rest).eraseReps := by
  rw [List.eraseReps, List.eraseRepsBy, List.eraseRepsBy.loop, eraseReps_loop, eraseReps_loop]
  cases first == next <;> rfl

theorem eraseReps_sublist (items : List α) : items.eraseReps.Sublist items := by
  cases items with
  | nil => exact List.nil_sublist _
  | cons first rest =>
      induction rest generalizing first with
      | nil => exact List.Sublist.refl _
      | cons next rest ih =>
          rw [eraseReps_cons_cons]
          split
          · exact (ih first).trans ((List.sublist_cons_self next rest).cons_cons first)
          · exact (ih next).cons_cons first

private theorem mem_eraseReps [LawfulBEq α] {item : α} {items : List α} :
    item ∈ items.eraseReps ↔ item ∈ items := by
  refine ⟨fun hmem => (eraseReps_sublist items).subset hmem, fun hmem => ?_⟩
  cases items with
  | nil => contradiction
  | cons first rest =>
      induction rest generalizing first with
      | nil => exact hmem
      | cons next rest ih =>
          rw [eraseReps_cons_cons]
          split
          · next heq =>
              obtain rfl := eq_of_beq heq
              exact ih first (by simpa using hmem)
          · rcases List.mem_cons.mp hmem with rfl | hmem
            · exact List.mem_cons_self
            · exact List.mem_cons_of_mem _ (ih next hmem)

end EraseReps

theorem mem_arrange {symbols : List Text} {symbol : Text} :
    symbol ∈ arrange symbols ↔ symbol ∈ symbols := by
  rw [arrange, mem_eraseReps, List.mem_mergeSort]

theorem longest_first_trans (first second third : Text)
    (hfirst : decide (second.byteLength ≤ first.byteLength) = true)
    (hsecond : decide (third.byteLength ≤ second.byteLength) = true) :
    decide (third.byteLength ≤ first.byteLength) = true :=
  decide_eq_true (Nat.le_trans (of_decide_eq_true hsecond) (of_decide_eq_true hfirst))

theorem longest_first_total (left right : Text) :
    (decide (right.byteLength ≤ left.byteLength) ||
      decide (left.byteLength ≤ right.byteLength)) = true := by
  simpa using Nat.le_total right.byteLength left.byteLength

theorem pairwise_arrange (symbols : List Text) :
    (arrange symbols).Pairwise fun left right => right.byteLength ≤ left.byteLength := by
  have hsorted :=
    (List.pairwise_mergeSort longest_first_trans longest_first_total symbols).imp of_decide_eq_true
  exact hsorted.sublist (eraseReps_sublist _)

def symbols (language : Language) : List Text :=
  language.blockStart :: language.blockEnd :: (language.lineComment.toList ++ language.noise)

theorem mem_remnantSymbols {language : Language} {symbol : Text} :
    symbol ∈ language.remnantSymbols ↔ symbol ∈ language.symbols := by
  rw [remnantSymbols, mem_arrange, symbols, List.mem_cons, List.mem_cons, decorationSymbols,
    mem_arrange, ← List.mem_cons, ← List.mem_cons]

theorem pairwise_remnantSymbols (language : Language) :
    language.remnantSymbols.Pairwise fun left right => right.byteLength ≤ left.byteLength :=
  pairwise_arrange _

theorem fault?_eq_none_iff {language : Language} :
    language.fault? = none ↔ (language.extension ≠ [] ∧ '.' ∉ language.extension) ∧
      ∀ symbol ∈ language.symbols, symbol.allBlank = false := by
  have hline : language.lineComment.any Text.allBlank = false ↔
      ∀ symbol ∈ language.lineComment.toList, symbol.allBlank = false := by
    cases language.lineComment <;> simp
  have hnoise : language.noise.any Text.allBlank = false ↔
      ∀ symbol ∈ language.noise, symbol.allBlank = false := by
    simp
  rw [symbols, List.forall_mem_cons, List.forall_mem_cons, List.forall_mem_append, ← hline,
    ← hnoise, fault?, ← not_or]
  by_cases hextension : language.extension = [] ∨ '.' ∈ language.extension
  · rw [if_pos hextension]
    exact ⟨nofun, fun hvalid => absurd hextension hvalid.1⟩
  · rw [if_neg hextension]
    cases language.blockStart.allBlank <;> cases language.blockEnd.allBlank <;>
      cases language.lineComment.any Text.allBlank <;> cases language.noise.any Text.allBlank <;>
        simp [hextension]

end Docblock.Language
