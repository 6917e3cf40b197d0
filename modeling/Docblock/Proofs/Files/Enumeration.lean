import Docblock.Files.Glob.Search
import Mathlib.Data.List.Perm.Basic
import Mathlib.Data.List.Flatten

namespace Docblock

/-! A directory may list its names in any order.  A search for a pattern finds the same files
whatever the orders are, and as often. -/

/-- Two answers that name the same entries as often, or the same fault. -/
inductive SameNames : Except FileFault (List Text) → Except FileFault (List Text) → Prop
  | error (fault : FileFault) : SameNames (.error fault) (.error fault)
  | ok {names others : List Text} (hperm : names.Perm others) : SameNames (.ok names) (.ok others)

/-- Two views of the same files, with directories that may be listed in other orders. -/
structure Reordered (view other : FileView Id) : Prop where
  kind?_eq : ∀ path, view.kind? path = other.kind? path
  sameNames : ∀ path, SameNames (view.entries path) (other.entries path)

namespace Glob

theorem run_flatMapM {α β : Type} (action : α → Id (List β)) (items : List α) :
    (items.flatMapM action).run = items.flatMap fun item => (action item).run := by
  induction items with
  | nil => rfl
  | cons item rest ih =>
      rw [List.flatMapM_cons, List.flatMap_cons, ← ih]
      rfl

variable {view other : FileView Id} (hreordered : Reordered view other)
include hreordered

theorem children_perm (directory : Text) :
    (children view directory).run.Perm (children other directory).run := by
  have hnames := hreordered.sameNames directory
  simp only [children, Id.run_bind]
  generalize view.entries directory = names at hnames
  generalize other.entries directory = others at hnames
  cases hnames with
  | error fault => exact .refl []
  | ok hperm => exact hperm.map _

private theorem descendants_perm (levels : Nat) (directory : Text) :
    (descendants view levels directory).run.Perm (descendants other levels directory).run := by
  induction levels generalizing directory with
  | zero => exact .refl []
  | succ levels ih =>
      have hchildren := children_perm hreordered directory
      simp only [descendants, Id.run_bind, Id.run_pure, run_flatMapM]
      refine hchildren.append (hchildren.flatMap fun entry _ => ?_)
      rw [hreordered.kind?_eq]
      split
      · exact ih entry.2
      · exact .refl []

private theorem advance_perm (step : Step) (directory : Text) :
    (advance view step directory).run.Perm (advance other step directory).run := by
  unfold advance
  split
  · simp only [Id.run_bind, Id.run_pure]
    exact ((descendants_perm hreordered deepest directory).filter _).map _
  · split
    · simp only [Id.run_bind, Id.run_pure, hreordered.kind?_eq]
      exact .refl _
    · simp only [Id.run_bind, Id.run_pure]
      exact (((children_perm hreordered directory).filter _).map _).append (.refl _)

private theorem search_perm (steps : List Step) (path : Text) :
    (search view steps path).run.Perm (search other steps path).run := by
  induction steps generalizing path with
  | nil =>
      simp only [search, Id.run_bind, Id.run_pure, hreordered.kind?_eq]
      exact .refl _
  | cons step rest ih =>
      simp only [search, Id.run_bind, hreordered.kind?_eq]
      split
      · simp only [Id.run_bind, run_flatMapM]
        exact (advance_perm hreordered step path).flatMap fun found _ => ih found
      · exact .refl []

theorem files_perm (pattern : Pattern) :
    (files view pattern).run.Perm (files other pattern).run := by
  unfold files
  split
  · exact .refl []
  · exact search_perm hreordered pattern.steps _

end Glob
end Docblock
