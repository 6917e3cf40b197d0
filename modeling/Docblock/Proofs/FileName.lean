import Docblock.FileName

namespace Docblock

namespace Text

def afterLast (c : Char) (text : Text) : Text :=
  (text.reverse.takeWhile (· ≠ c)).reverse

theorem afterLast_append {c : Char} {after : Text} (hnot : c ∉ after) (before : Text) :
    afterLast c (before ++ c :: after) = after := by
  have hafter : ∀ d ∈ after.reverse, decide (d ≠ c) = true := fun d hd =>
    decide_eq_true fun heq => hnot (heq ▸ List.mem_reverse.mp hd)
  rw [afterLast, List.reverse_append, List.reverse_cons, List.append_assoc,
    List.takeWhile_append_of_pos hafter]
  simp

theorem afterLast_of_not_mem {c : Char} {text : Text} (hnot : c ∉ text) :
    afterLast c text = text := by
  have htext : ∀ d ∈ text.reverse, decide (d ≠ c) = true := fun d hd =>
    decide_eq_true fun heq => hnot (heq ▸ List.mem_reverse.mp hd)
  rw [afterLast, ← List.append_nil text.reverse, List.takeWhile_append_of_pos htext]
  simp

theorem exists_append_afterLast {c : Char} {text : Text} (hmem : c ∈ text) :
    ∃ before, text = before ++ c :: afterLast c text ∧ c ∉ afterLast c text := by
  obtain ⟨after, before, hsplit, hnot⟩ :=
    List.eq_append_cons_of_mem (List.mem_reverse.mpr hmem)
  have htext : text = before.reverse ++ c :: after.reverse := by
    rw [← List.reverse_reverse text, hsplit]
    simp
  have hlast : afterLast c text = after.reverse := by
    rw [htext, afterLast_append (by simpa using hnot)]
  refine ⟨before.reverse, ?_, ?_⟩
  · rw [hlast, ← htext]
  · rw [hlast]
    simpa using hnot

end Text

namespace FileName

theorem exists_append_base (name : Text) : ∃ before, name = before ++ base name := by
  refine ⟨(name.reverse.dropWhile fun c => !isSeparator c).reverse, ?_⟩
  rw [base, ← List.reverse_append, List.takeWhile_append_dropWhile, List.reverse_reverse]

theorem isSeparator_of_mem_base {name : Text} {c : Char} (hmem : c ∈ base name) :
    isSeparator c = false := by
  have hkept := List.all_eq_true.mp List.all_takeWhile c (List.mem_reverse.mp hmem)
  simpa using hkept

private theorem base_append {after : Text} (hafter : ∀ c ∈ after, isSeparator c = false)
    (before : Text) : base (before ++ after) = base before ++ after := by
  have hkept : ∀ c ∈ after.reverse, (!isSeparator c) = true := fun c hc => by
    rw [hafter c (List.mem_reverse.mp hc)]
    rfl
  rw [base, List.reverse_append, List.takeWhile_append_of_pos hkept, List.reverse_append,
    List.reverse_reverse]
  rfl

theorem base_append_slash (directory name : Text) :
    base (directory ++ '/' :: name) = base name := by
  rw [base, base, List.reverse_append, List.reverse_cons, List.append_assoc]
  rw [List.singleton_append, List.takeWhile_append]
  split
  · rename_i hwhole
    rw [List.takeWhile_cons_of_neg (by decide), List.append_nil,
      (List.takeWhile_prefix _).eq_of_length hwhole]
  · rfl

theorem extension?_congr {name other : Text} (hbase : base name = base other) :
    extension? name = extension? other := by
  rw [extension?, extension?, hbase]

private theorem extension?_eq_some_iff_base {name extension : Text} :
    extension? name = some extension ↔
      '.' ∈ base name ∧ extension = Text.afterLast '.' (base name) ∧ extension ≠ [] := by
  have hafter : Text.afterLast '.' (base name) =
      ((base name).reverse.takeWhile (· ≠ '.')).reverse := rfl
  by_cases hdot : '.' ∈ base name
  · rw [extension?, if_pos hdot, ← hafter]
    cases hlast : Text.afterLast '.' (base name) with
    | nil => simp
    | cons c rest =>
        simp only [hdot, true_and, Option.some.injEq]
        constructor
        · rintro rfl
          exact ⟨rfl, List.cons_ne_nil c rest⟩
        · exact fun hextension => hextension.1.symm
  · rw [extension?, if_neg hdot]
    simp [hdot]

theorem extension?_eq_some_iff {name extension : Text} :
    extension? name = some extension ↔
      ∃ before, name = before ++ '.' :: extension ∧ extension ≠ [] ∧
        ∀ c ∈ extension, c ≠ '.' ∧ c ≠ '/' ∧ c ≠ '\\' := by
  rw [extension?_eq_some_iff_base]
  constructor
  · rintro ⟨hdot, rfl, hne⟩
    obtain ⟨start, hname⟩ := exists_append_base name
    obtain ⟨stem, hbase, hnot⟩ := Text.exists_append_afterLast hdot
    refine ⟨start ++ stem, ?_, hne, fun c hc => ?_⟩
    · rw [List.append_assoc, ← hbase, ← hname]
    · have hseparator : isSeparator c = false :=
        isSeparator_of_mem_base (by rw [hbase]; simp [hc])
      refine ⟨fun heq => hnot (heq ▸ hc), ?_⟩
      simpa [isSeparator] using hseparator
  · rintro ⟨before, rfl, hne, hchars⟩
    have hafter : ∀ c ∈ '.' :: extension, isSeparator c = false := by
      rw [List.forall_mem_cons]
      refine ⟨rfl, fun c hc => ?_⟩
      simpa [isSeparator] using (hchars c hc).2
    have hnot : '.' ∉ extension := fun hdot => (hchars '.' hdot).1 rfl
    rw [base_append hafter, Text.afterLast_append hnot]
    exact ⟨by simp, rfl, hne⟩

end FileName
end Docblock
