import Docblock.Files.Path
import Docblock.Proofs.Lists
import Mathlib.Data.List.Induction
import Mathlib.Data.List.Lex
import Mathlib.Data.List.Perm.Basic

namespace Docblock.Path

/-! Paths are put in order by their components, and of paths with the same components the first one
is kept. -/

private theorem Component.key_injective : Function.Injective Component.key := by
  have hnames : Function.Injective (List.map Char.toNat) :=
    List.map_injective_iff.mpr fun _ _ => Char.toNat_inj.mp
  intro left right hkey
  cases left <;> cases right <;> simp [key] at hkey ⊢
  exact hnames hkey

theorem map_key_injective : Function.Injective (List.map Component.key) :=
  List.map_injective_iff.mpr Component.key_injective

def InOrder (paths : List Text) : Prop :=
  paths.Pairwise fun left right => ¬ key right < key left

theorem inOrder_sort (paths : List Text) : InOrder (sort paths) := by
  have htrans : ∀ first second third : Text, decide (¬ key second < key first) = true →
      decide (¬ key third < key second) = true → decide (¬ key third < key first) = true := by
    intro first second third hfirst hsecond
    rw [decide_eq_true_iff, not_lt] at hfirst hsecond ⊢
    exact le_trans hfirst hsecond
  have htotal : ∀ left right : Text,
      (decide (¬ key right < key left) || decide (¬ key left < key right)) = true := by
    intro left right
    simpa using le_total (key left) (key right)
  exact (List.pairwise_mergeSort htrans htotal paths).imp of_decide_eq_true

theorem sort_perm (paths : List Text) : (sort paths).Perm paths :=
  List.mergeSort_perm paths _

private theorem components_eq_of_not_lt {left right : Text} (hleft : ¬ key right < key left)
    (hright : ¬ key left < key right) : components left = components right :=
  map_key_injective (le_antisymm (not_lt.mp hleft) (not_lt.mp hright))

section Perm

variable {paths others : List Text} (hpaths : InOrder paths) (hothers : InOrder others)
  (hperm : paths.Perm others)
include hpaths hothers hperm

theorem map_components_eq_of_perm : paths.map components = others.map components := by
  have hordered : ∀ paths, InOrder paths → (paths.map components).Pairwise fun left right =>
      ¬ right.map Component.key < left.map Component.key :=
    fun paths hpaths => List.pairwise_map.mpr hpaths
  refine (hperm.map components).eq_of_pairwise ?_ (hordered paths hpaths) (hordered others hothers)
  intro left right _ _ hleft hright
  exact map_key_injective (le_antisymm (not_lt.mp hleft) (not_lt.mp hright))

theorem eq_of_perm
    (hspelled : ∀ left ∈ paths, ∀ right ∈ paths, components left = components right →
      left = right) : paths = others := by
  refine hperm.eq_of_pairwise ?_ hpaths hothers
  intro left right hleft hright hbefore hbehind
  exact hspelled left hleft right (hperm.mem_iff.mpr hright)
    (components_eq_of_not_lt hbefore hbehind)

end Perm

private theorem unique_append_singleton (paths : List Text) (path : Text) :
    unique (paths ++ [path]) =
      if components path ∈ paths.map components then unique paths else unique paths ++ [path] := by
  induction paths with
  | nil => rfl
  | cons first rest ih =>
      have hmem : components path ∈ (first :: rest).map components ↔
          components path = components first ∨ components path ∈ rest.map components :=
        List.mem_cons
      rw [List.cons_append, unique, ih]
      by_cases hrest : components path ∈ rest.map components
      · rw [if_pos hrest, if_pos (hmem.mpr (.inr hrest)), unique]
      · rw [if_neg hrest, List.filter_append]
        by_cases hfirst : components path = components first
        · rw [if_pos (hmem.mpr (.inl hfirst)), unique]
          simp [same, hfirst]
        · rw [if_neg fun hseen => (hmem.mp hseen).elim hfirst hrest, unique]
          simp [same, Ne.symm hfirst]

theorem map_components_unique (paths : List Text) :
    (unique paths).map components = (paths.map components).eraseDups := by
  induction paths using List.reverseRecOn with
  | nil => rfl
  | append_singleton paths path ih =>
      rw [unique_append_singleton, List.map_append, List.map_singleton,
        eraseDups_append_singleton, ← ih]
      split
      · rfl
      · rw [List.map_append, List.map_singleton]

theorem nodup_map_components_unique (paths : List Text) :
    ((unique paths).map components).Nodup := by
  induction paths with
  | nil => exact .nil
  | cons first rest ih =>
      rw [unique, List.map_cons, List.nodup_cons]
      refine ⟨fun hmem => ?_, ih.sublist (List.filter_sublist.map components)⟩
      obtain ⟨path, hpath, hsame⟩ := List.mem_map.mp hmem
      simp [same, hsame] at hpath

end Docblock.Path
