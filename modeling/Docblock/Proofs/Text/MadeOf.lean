import Docblock.Proofs.Text.Trimming

namespace Docblock.Text

/-! Texts that are symbols and blanks, one after the other. -/

/-- A symbol or a single blank. -/
inductive IsPart (symbols : List Text) : Text → Prop
  | symbol {symbol : Text} (hmem : symbol ∈ symbols) : IsPart symbols symbol
  | blank {c : Char} (hblank : isBlank c = true) : IsPart symbols [c]

inductive MadeOf (symbols : List Text) : Text → Prop
  | nil : MadeOf symbols []
  | append {part rest : Text} (hpart : IsPart symbols part) (hrest : MadeOf symbols rest) :
      MadeOf symbols (part ++ rest)

variable {symbols : List Text}

theorem IsPart.madeOf {part : Text} (hpart : IsPart symbols part) : MadeOf symbols part := by
  have happend := MadeOf.append hpart .nil
  rwa [List.append_nil] at happend

theorem MadeOf.trans {left right : Text} (hleft : MadeOf symbols left)
    (hright : MadeOf symbols right) : MadeOf symbols (left ++ right) := by
  induction hleft with
  | nil => exact hright
  | append hpart hrest ih =>
      rw [List.append_assoc]
      exact .append hpart ih

theorem madeOf_of_allBlank {text : Text} (hblank : text.allBlank = true) :
    MadeOf symbols text := by
  induction text with
  | nil => exact .nil
  | cons c rest ih =>
      rw [allBlank, List.all_cons, Bool.and_eq_true] at hblank
      exact .append (.blank hblank.1) (ih hblank.2)

theorem MadeOf.of_trimStart {text : Text} (hmade : MadeOf symbols text.trimStart) :
    MadeOf symbols text := by
  obtain ⟨blanks, hblanks, hsplit⟩ := exists_trimStart text
  exact hsplit ▸ (madeOf_of_allBlank hblanks).trans hmade

theorem MadeOf.of_trimEnd {text : Text} (hmade : MadeOf symbols text.trimEnd) :
    MadeOf symbols text := by
  obtain ⟨blanks, hblanks, hsplit⟩ := exists_trimEnd text
  exact hsplit ▸ hmade.trans (madeOf_of_allBlank hblanks)

theorem MadeOf.of_trim {text : Text} (hmade : MadeOf symbols text.trim) : MadeOf symbols text :=
  hmade.of_trimEnd.of_trimStart

theorem MadeOf.exists_symbol {text : Text} (hmade : MadeOf symbols text) (hne : text ≠ [])
    (hhead : ∀ c ∈ text.head?, isBlank c = false) : ∃ symbol ∈ symbols, symbol <+: text := by
  cases hmade with
  | nil => contradiction
  | @append part rest hpart hrest =>
      cases hpart with
      | symbol hmem => exact ⟨part, hmem, List.prefix_append part rest⟩
      | @blank c hblank =>
          have hword := hhead c rfl
          rw [hblank] at hword
          contradiction

/-- Whether symbols in front of a symbol leave something made of symbols and blanks. -/
def Splits (symbols : List Text) (symbol : Text) : Prop :=
  ∀ front ∈ symbols, ∀ rest, symbol = front ++ rest → MadeOf symbols rest

/-- Symbols of which nothing but symbols and blanks is left when the blanks around them, or
symbols in front of them, are taken off. -/
structure Closed (symbols : List Text) : Prop where
  trim : ∀ symbol ∈ symbols, MadeOf symbols (trim symbol)
  splits : ∀ symbol ∈ symbols, Splits symbols symbol

theorem madeOf_tail (htrim : ∀ symbol ∈ symbols, MadeOf symbols (trim symbol)) {c : Char}
    {tail : Text} (hmem : c :: tail ∈ symbols) (hblank : isBlank c = true) :
    MadeOf symbols tail := by
  have hmade := htrim (c :: tail) hmem
  have hfirst : allBlank [c] = true := by simpa [allBlank] using hblank
  rw [← List.singleton_append, trim, trimStart_append_of_allBlank hfirst, ← trim] at hmade
  exact hmade.of_trim

section Cancellation

variable (hnil : [] ∉ symbols) (htrim : ∀ symbol ∈ symbols, MadeOf symbols (trim symbol))
include hnil

theorem IsPart.ne_nil {part : Text} (hpart : IsPart symbols part) : part ≠ [] := by
  cases hpart with
  | symbol hmem => exact fun hempty => hnil (hempty ▸ hmem)
  | blank => exact List.cons_ne_nil _ _

include htrim

private theorem IsPart.madeOf_rest {part front rest : Text} (hpart : IsPart symbols part)
    (hfront : IsPart symbols front) (hsplits : part ∈ symbols → Splits symbols part)
    (hsplit : part = front ++ rest) : MadeOf symbols rest := by
  cases hpart with
  | symbol hmem =>
      cases hfront with
      | symbol hfront => exact hsplits hmem front hfront rest hsplit
      | blank hblank =>
          subst hsplit
          exact madeOf_tail htrim hmem hblank
  | @blank c hblank =>
      obtain ⟨d, front, rfl⟩ := List.exists_cons_of_ne_nil (hfront.ne_nil hnil)
      obtain ⟨-, hempty⟩ := List.cons.inj hsplit
      rw [(List.append_eq_nil_iff.mp hempty.symm).2]
      exact .nil

private theorem IsPart.madeOf_behind {first behind whole : Text} (hfirst : IsPart symbols first)
    (hsame : first ++ behind = whole) (hwhole : MadeOf symbols whole)
    (hsplits : ∀ symbol ∈ symbols, symbol.length ≤ whole.length → Splits symbols symbol)
    (hshorter : ∀ front rest : Text, (front ++ rest).length < whole.length →
      MadeOf symbols front → MadeOf symbols (front ++ rest) → MadeOf symbols rest) :
    MadeOf symbols behind := by
  have hfirstLength : first.length ≤ whole.length := by
    rw [← hsame, List.length_append]
    exact Nat.le_add_right _ _
  cases hwhole with
  | nil => exact absurd (List.append_eq_nil_iff.mp hsame).1 (hfirst.ne_nil hnil)
  | @append part tail hpart htail =>
      rw [List.length_append] at hsplits hshorter hfirstLength
      have hpartLength := List.length_pos_iff.mpr (hpart.ne_nil hnil)
      rcases List.append_eq_append_iff.mp hsame with
        ⟨middle, hpartSplit, rfl⟩ | ⟨middle, hfirstSplit, rfl⟩
      · have hmiddle := hpart.madeOf_rest hnil htrim hfirst
          (fun hmem => hsplits part hmem (Nat.le_add_right _ _)) hpartSplit
        exact hmiddle.trans htail
      · have hmiddle := hfirst.madeOf_rest hnil htrim hpart
          (fun hmem => hsplits first hmem hfirstLength) hfirstSplit
        exact hshorter middle behind (by omega) hmiddle htail

theorem MadeOf.cancel {front rest : Text} (hfront : MadeOf symbols front)
    (hwhole : MadeOf symbols (front ++ rest))
    (hsplits : ∀ symbol ∈ symbols, symbol.length ≤ (front ++ rest).length →
      Splits symbols symbol) : MadeOf symbols rest := by
  -- What is left of a part that reaches over the first one is made of other parts, so the
  -- induction is on the length of the text and not on how its front is made.
  induction hlength : (front ++ rest).length using Nat.strongRecOn generalizing front rest with
  | ind length ih =>
      have hshorter : ∀ front rest : Text, (front ++ rest).length < length →
          MadeOf symbols front → MadeOf symbols (front ++ rest) → MadeOf symbols rest := by
        intro front rest hlt hfront hwhole
        exact ih _ hlt hfront hwhole
          (fun symbol hmem hle => hsplits symbol hmem (by omega)) rfl
      cases hfront with
      | nil => exact hwhole
      | @append first front hfirst hfront =>
          rw [← hlength] at hshorter
          have hbehind := hfirst.madeOf_behind hnil htrim (List.append_assoc first front rest).symm
            hwhole hsplits hshorter
          refine hshorter front rest ?_ hfront hbehind
          have hpositive := List.length_pos_iff.mpr (hfirst.ne_nil hnil)
          rw [List.append_assoc, @List.length_append _ first]
          omega

end Cancellation

theorem MadeOf.trimEnd (htrim : ∀ symbol ∈ symbols, MadeOf symbols (trim symbol)) {text : Text}
    (hmade : MadeOf symbols text) : MadeOf symbols text.trimEnd := by
  induction hmade with
  | nil => exact .nil
  | @append part rest hpart hrest ih =>
      cases hblank : rest.allBlank with
      | true =>
          rw [trimEnd_append_of_allBlank hblank]
          apply MadeOf.of_trim
          rw [trim_trimEnd]
          cases hpart with
          | symbol hmem => exact htrim part hmem
          | @blank c hc =>
              rw [trim_eq_nil_iff.mpr (by simpa [allBlank] using hc)]
              exact .nil
      | false =>
          rw [trimEnd_append_of_not_allBlank hblank]
          exact .append hpart ih

theorem MadeOf.of_append_blank (htrim : ∀ symbol ∈ symbols, MadeOf symbols (trim symbol))
    {text blanks : Text} (hblanks : blanks.allBlank = true)
    (hmade : MadeOf symbols (text ++ blanks)) : MadeOf symbols text := by
  have hend := hmade.trimEnd htrim
  rw [trimEnd_append_of_allBlank hblanks] at hend
  exact hend.of_trimEnd

section Closed

variable (hclosed : Closed symbols) (hnil : [] ∉ symbols)
include hclosed hnil

theorem Closed.cancel {front rest : Text} (hfront : MadeOf symbols front)
    (hwhole : MadeOf symbols (front ++ rest)) : MadeOf symbols rest :=
  hfront.cancel hnil hclosed.trim hwhole fun symbol hmem _ => hclosed.splits symbol hmem

theorem Closed.madeOf_trimStart {text : Text} (hmade : MadeOf symbols text) :
    MadeOf symbols text.trimStart := by
  obtain ⟨blanks, hblanks, hsplit⟩ := exists_trimStart text
  exact hclosed.cancel hnil (madeOf_of_allBlank hblanks) (hsplit ▸ hmade)

theorem Closed.madeOf_trim {text : Text} (hmade : MadeOf symbols text) :
    MadeOf symbols text.trim :=
  (hclosed.madeOf_trimStart hnil hmade).trimEnd hclosed.trim

end Closed

theorem MadeOf.of_gap {text gap rest : Text} (hmade : MadeOf symbols (text ++ (gap ++ rest)))
    (hgap : gap.allBlank = true) (hlong : ∀ symbol ∈ symbols, symbol.length ≤ gap.length)
    (hne : gap ≠ []) :
    ∃ blanks : Text, blanks.allBlank = true ∧ MadeOf symbols (text ++ blanks) := by
  have hshort : ∀ part, IsPart symbols part → part.length ≤ gap.length := by
    intro part hpart
    cases hpart with
    | symbol hmem => exact hlong part hmem
    | blank => exact List.length_pos_iff.mpr hne
  generalize hsame : text ++ (gap ++ rest) = whole at hmade
  induction hmade generalizing text with
  | nil =>
      rw [(List.append_eq_nil_iff.mp hsame).1]
      exact ⟨[], rfl, .nil⟩
  | @append part tail hpart htail ih =>
      rcases List.append_eq_append_iff.mp hsame with
        ⟨middle, rfl, hgapSplit⟩ | ⟨middle, rfl, htailSplit⟩
      · have hle := hshort _ hpart
        have hstarts : middle <+: gap := by
          apply List.prefix_of_prefix_length_le (List.prefix_append middle tail)
          · exact hgapSplit ▸ List.prefix_append gap rest
          · rw [List.length_append] at hle
            omega
        refine ⟨middle, ?_, hpart.madeOf⟩
        exact List.all_eq_true.mpr fun c hc => List.all_eq_true.mp hgap c (hstarts.subset hc)
      · obtain ⟨blanks, hblanks, hrest⟩ := ih htailSplit.symm
        refine ⟨blanks, hblanks, ?_⟩
        rw [List.append_assoc]
        exact .append hpart hrest

end Docblock.Text
