import Docblock.Proofs.Text.Replacement

namespace Docblock.Text

def dropBefore (escape : Char) (meets : Text → Bool) : Text → Text
  | [] => []
  | c :: rest =>
      if c = escape && meets rest then dropBefore escape meets rest
      else c :: dropBefore escape meets rest

section DropBefore

variable {escape : Char} {meets : Text → Bool}

theorem dropBefore_of_meets {rest : Text} (hmeets : meets rest = true) :
    dropBefore escape meets (escape :: rest) = dropBefore escape meets rest := by
  simp [dropBefore, hmeets]

theorem dropBefore_of_ne {c : Char} (hne : c ≠ escape) (rest : Text) :
    dropBefore escape meets (c :: rest) = c :: dropBefore escape meets rest := by
  simp [dropBefore, hne]

theorem dropBefore_of_not_meets {rest : Text} (hmeets : meets rest = false) (c : Char) :
    dropBefore escape meets (c :: rest) = c :: dropBefore escape meets rest := by
  simp [dropBefore, hmeets]

theorem dropBefore_append {lead : Text} (hlead : escape ∉ lead) (rest : Text) :
    dropBefore escape meets (lead ++ rest) = lead ++ dropBefore escape meets rest := by
  induction lead with
  | nil => rfl
  | cons c lead ih =>
      rw [List.mem_cons, not_or] at hlead
      rw [List.cons_append, dropBefore_of_ne (Ne.symm hlead.1), ih hlead.2, List.cons_append]

theorem dropBefore_cons_cases (escape : Char) (meets : Text → Bool) (c : Char) (rest : Text) :
    (c = escape ∧ meets rest = true ∧
        dropBefore escape meets (c :: rest) = dropBefore escape meets rest) ∨
      (¬ (c = escape ∧ meets rest = true) ∧
        dropBefore escape meets (c :: rest) = c :: dropBefore escape meets rest) := by
  by_cases hdropped : c = escape ∧ meets rest = true
  · obtain ⟨rfl, hmeets⟩ := hdropped
    exact .inl ⟨rfl, hmeets, dropBefore_of_meets hmeets⟩
  · refine .inr ⟨hdropped, ?_⟩
    rw [dropBefore, if_neg (by simpa using hdropped)]

theorem replace_eq_dropBefore {mark : Text} (hescape : escape ∉ mark) (text : Text) :
    replace text (escape :: mark) mark = dropBefore escape (mark.isPrefixOf ·) text := by
  have hne : escape :: mark ≠ [] := List.cons_ne_nil escape mark
  induction text using replace_induction hne with
  | nil => rfl
  | matched rest ih =>
      have hmeets : mark.isPrefixOf (mark ++ rest) = true := by
        simp [List.isPrefixOf_iff_prefix]
      rw [replace_append_of_ne_nil hne, ih, List.cons_append, dropBefore_of_meets hmeets,
        dropBefore_append hescape]
  | unmatched c rest hunmatched ih =>
      rw [replace_cons_of_unmatched hunmatched, ih]
      rcases dropBefore_cons_cases escape (mark.isPrefixOf ·) c rest with
        ⟨rfl, hmeets, -⟩ | ⟨-, hkept⟩
      · rw [List.isPrefixOf_iff_prefix] at hmeets
        exact absurd (List.cons_prefix_cons.mpr ⟨rfl, hmeets⟩) hunmatched
      · exact hkept.symm

/-- Where a pass for a mark drops a character as well, after a pass that drops it before what
meets a condition. -/
def alsoBefore (escape : Char) (meets : Text → Bool) (mark rest : Text) : Bool :=
  meets rest || mark.isPrefixOf (dropBefore escape meets rest)

theorem alsoBefore_iff {mark rest : Text} :
    alsoBefore escape meets mark rest = true ↔
      meets rest = true ∨ mark <+: dropBefore escape meets rest := by
  rw [alsoBefore, Bool.or_eq_true, List.isPrefixOf_iff_prefix]

theorem replace_dropBefore {mark : Text} (hescape : escape ∉ mark) (text : Text) :
    replace (dropBefore escape meets text) (escape :: mark) mark =
      dropBefore escape (alsoBefore escape meets mark) text := by
  rw [replace_eq_dropBefore hescape]
  induction text with
  | nil => rfl
  | cons c rest ih =>
      rcases dropBefore_cons_cases escape meets c rest with
        ⟨rfl, hmeets, hdropped⟩ | ⟨hkept, hstays⟩
      · rw [hdropped, ih, dropBefore_of_meets (alsoBefore_iff.mpr (.inl hmeets))]
      · rw [hstays, dropBefore, dropBefore, ih]
        by_cases hc : c = escape
        · have hmeets : meets rest = false := by simpa [hc] using hkept
          rw [alsoBefore, hmeets, Bool.false_or]
        · simp [hc]

private theorem length_dropBefore_le {narrow wide : Text → Bool}
    (hwide : ∀ rest, narrow rest = true → wide rest = true) (text : Text) :
    (dropBefore escape wide text).length ≤ (dropBefore escape narrow text).length := by
  induction text with
  | nil => exact Nat.le_refl 0
  | cons c rest ih =>
      rcases dropBefore_cons_cases escape narrow c rest with
        ⟨rfl, hnarrow, hdropped⟩ | ⟨-, hstays⟩
      · rw [hdropped, dropBefore_of_meets (hwide rest hnarrow)]
        exact ih
      · rw [hstays]
        rcases dropBefore_cons_cases escape wide c rest with ⟨-, -, hwider⟩ | ⟨-, hwider⟩
        · rw [hwider]
          exact Nat.le_succ_of_le ih
        · rw [hwider]
          exact Nat.succ_le_succ ih

private theorem forall_suffix_cons_iff {holds : Text → Prop} {c : Char} {rest : Text} :
    (∀ part, escape :: part <:+ c :: rest → holds part) ↔
      (c = escape → holds rest) ∧ ∀ part, escape :: part <:+ rest → holds part := by
  simp only [List.suffix_cons_iff, List.cons.injEq]
  constructor
  · intro hall
    exact ⟨fun hc => hall rest (.inl ⟨hc.symm, rfl⟩), fun part hpart => hall part (.inr hpart)⟩
  · rintro ⟨hhead, htail⟩ part (⟨hc, rfl⟩ | hpart)
    · exact hhead hc.symm
    · exact htail part hpart

theorem dropBefore_eq_iff {narrow wide : Text → Bool}
    (hwide : ∀ rest, narrow rest = true → wide rest = true) (text : Text) :
    dropBefore escape wide text = dropBefore escape narrow text ↔
      ∀ rest, escape :: rest <:+ text → wide rest = true → narrow rest = true := by
  induction text with
  | nil => simp [dropBefore]
  | cons c rest ih =>
      rw [forall_suffix_cons_iff, ← ih]
      rcases dropBefore_cons_cases escape wide c rest with
        ⟨rfl, hmeets, hdropped⟩ | ⟨hkept, hstays⟩
      · rw [hdropped]
        rcases dropBefore_cons_cases c narrow c rest with ⟨-, hnarrow, hboth⟩ | ⟨hnarrow, hone⟩
        · rw [hboth]
          exact (and_iff_right fun _ _ => hnarrow).symm
        · -- What is dropped here alone is not made up for later, where as much is dropped.
          rw [hone]
          constructor
          · intro hequal
            have hlength := @length_dropBefore_le c _ _ hwide rest
            rw [hequal, List.length_cons] at hlength
            omega
          · intro hboth
            exact absurd ⟨rfl, hboth.1 rfl hmeets⟩ hnarrow
      · have hsame : dropBefore escape narrow (c :: rest) =
            c :: dropBefore escape narrow rest := by
          rcases dropBefore_cons_cases escape narrow c rest with ⟨hc, hnarrow, -⟩ | ⟨-, hone⟩
          · exact absurd ⟨hc, hwide rest hnarrow⟩ hkept
          · exact hone
        rw [hstays, hsame, List.cons_inj_right]
        refine (and_iff_right fun hc hmeets => ?_).symm
        exact absurd ⟨hc, hmeets⟩ hkept

theorem cons_prefix_dropBefore {c : Char} {mark text : Text}
    (hbegins : c :: mark <+: dropBefore escape meets text) :
    (∃ rest, text = c :: rest ∧ mark <+: dropBefore escape meets rest) ∨
      ∃ rest, text = escape :: rest ∧ meets rest = true ∧
        c :: mark <+: dropBefore escape meets rest := by
  cases text with
  | nil => simp [dropBefore] at hbegins
  | cons d rest =>
      rcases dropBefore_cons_cases escape meets d rest with
        ⟨rfl, hmeets, hdropped⟩ | ⟨-, hstays⟩
      · rw [hdropped] at hbegins
        exact .inr ⟨rest, rfl, hmeets, hbegins⟩
      · rw [hstays, List.cons_prefix_cons] at hbegins
        obtain ⟨rfl, hmark⟩ := hbegins
        exact .inl ⟨rest, rfl, hmark⟩

section DroppedBefore

variable {first : Char}
  (hfirst : ∀ rest, meets rest = true → (dropBefore escape meets rest).head? = some first)
include hfirst

theorem cons_prefix_dropBefore_of_ne {c : Char} (hne : c ≠ first) {mark text : Text}
    (hbegins : c :: mark <+: dropBefore escape meets text) :
    ∃ rest, text = c :: rest ∧ mark <+: dropBefore escape meets rest := by
  rcases cons_prefix_dropBefore hbegins with hkept | ⟨rest, -, hmeets, behind, hbehind⟩
  · exact hkept
  · have hhead := hfirst rest hmeets
    rw [← hbehind] at hhead
    exact absurd (Option.some.inj hhead) hne

theorem append_prefix_dropBefore {lead mark text : Text} (hlead : first ∉ lead)
    (hbegins : lead ++ mark <+: dropBefore escape meets text) :
    ∃ rest, text = lead ++ rest ∧ mark <+: dropBefore escape meets rest := by
  induction lead generalizing text with
  | nil => exact ⟨text, rfl, hbegins⟩
  | cons c lead ih =>
      rw [List.mem_cons, not_or] at hlead
      obtain ⟨rest, rfl, hrest⟩ := cons_prefix_dropBefore_of_ne hfirst (Ne.symm hlead.1) hbegins
      obtain ⟨behind, rfl, hmark⟩ := ih hlead.2 hrest
      exact ⟨behind, rfl, hmark⟩

end DroppedBefore

end DropBefore

end Docblock.Text
