import Docblock.Proofs.Files.DirectoryScan
import Docblock.Proofs.Files.Enumeration
import Docblock.Proofs.Files.Path
import Mathlib.Data.List.Forall2

namespace Docblock.Selection

open Docblock.Path

/-! The files of arguments are those of one after the other, and those of each are in order.  Main
statement: of paths with the same components the first one is kept, and the orders in which
directories are listed do not show. -/

/-- Whether an argument names nothing and is no pattern either. -/
def IsFaulty (view : FileView Id) (argument : Text) : Prop :=
  view.kind? argument = (none : Option FileKind) ∧
    ∃ fault, Glob.Pattern.parse argument = .error fault

/-- The files of one argument, by their components in order.  It is open which of two spellings of
one path comes first. -/
inductive Expansion (view : FileView Id) (extensions : List Text) (argument : Text) :
    List Text → Prop
  | file (hkind : view.kind? argument = some .file) : Expansion view extensions argument [argument]
  | directory {names selected : List Text} (hkind : view.kind? argument = some .directory)
      (hentries : view.entries argument = .ok names)
      (hperm : selected.Perm (names.filterMap (pick view extensions argument)))
      (hordered : InOrder selected) : Expansion view extensions argument selected
  | pattern {parsed : Glob.Pattern} {selected : List Text} (hkind : view.kind? argument = none)
      (hparse : Glob.Pattern.parse argument = .ok parsed)
      (hperm : selected.Perm (Glob.files view parsed).run) (hordered : InOrder selected) :
      Expansion view extensions argument selected

section InOrder

variable {α β : Type} {action : α → Id (Except Error β)}

theorem run_inOrder_of_forall₂ {items : List α} {results : List β}
    (hresults : List.Forall₂ (fun item result => (action item).run = .ok result) items results) :
    (inOrder action items).run = .ok results := by
  induction hresults with
  | nil => rfl
  | cons hfirst hrest ih => simp [inOrder, hfirst, ih]

theorem run_inOrder_of_error {before : List α} {item : α} {error : Error}
    (hbefore : ∀ earlier ∈ before, ∃ result, (action earlier).run = .ok result)
    (herror : (action item).run = .error error) (after : List α) :
    (inOrder action (before ++ item :: after)).run = .error error := by
  induction before with
  | nil => simp [inOrder, herror]
  | cons first rest ih =>
      rw [List.forall_mem_cons] at hbefore
      obtain ⟨result, hresult⟩ := hbefore.1
      simp [inOrder, hresult, ih hbefore.2]

end InOrder

section Argument

variable {view : FileView Id} (extensions : List Text) {argument : Text}

theorem run_ofArgument_of_faulty {fault : Glob.Fault} (hkind : view.kind? argument = none)
    (hparse : Glob.Pattern.parse argument = .error fault) :
    (ofArgument view extensions argument).run = .error (.invalidPattern argument fault) := by
  simp only [ofArgument, hkind, matching, hparse]
  rfl

def IsReadable (view : FileView Id) (argument : Text) : Prop :=
  view.kind? argument = some .directory → ∃ names, view.entries argument = .ok names

theorem exists_expansion (hnot : ¬ IsFaulty view argument) (hreadable : IsReadable view argument) :
    ∃ expansion, (ofArgument view extensions argument).run = .ok expansion ∧
      Expansion view extensions argument expansion := by
  cases hkind : (view.kind? argument : Option FileKind) with
  | none =>
      cases hparse : Glob.Pattern.parse argument with
      | error fault => exact absurd ⟨hkind, fault, hparse⟩ hnot
      | ok parsed =>
          refine ⟨sort (Glob.files view parsed).run, ?_,
            .pattern hkind hparse (sort_perm _) (inOrder_sort _)⟩
          simp only [ofArgument, hkind, matching, hparse]
          rfl
  | some kind =>
      cases kind with
      | file =>
          refine ⟨[argument], ?_, .file hkind⟩
          simp only [ofArgument, hkind]
          rfl
      | directory =>
          obtain ⟨names, hentries⟩ := hreadable hkind
          exact ⟨_, ofArgument_directory hkind hentries extensions,
            .directory hkind hentries (sort_perm _) (inOrder_sort _)⟩

end Argument

namespace Expansion

variable {view : FileView Id} {extensions : List Text} {argument : Text} {left right : List Text}
  (hleft : Expansion view extensions argument left)
include hleft

theorem inOrder : InOrder left := by
  cases hleft with
  | file => exact List.pairwise_singleton _ _
  | directory _ _ _ hordered => exact hordered
  | pattern _ _ _ hordered => exact hordered

theorem perm (hright : Expansion view extensions argument right) : left.Perm right := by
  cases hleft with
  | file hkind =>
      cases hright with
      | file => exact .refl _
      | directory hother => cases hkind.symm.trans hother
      | pattern hother => cases hkind.symm.trans hother
  | directory hkind hentries hperm =>
      cases hright with
      | file hother => cases hkind.symm.trans hother
      | directory _ hothers hotherPerm =>
          obtain rfl := Except.ok.inj (hentries.symm.trans hothers)
          exact hperm.trans hotherPerm.symm
      | pattern hother => cases hkind.symm.trans hother
  | pattern hkind hparse hperm =>
      cases hright with
      | file hother => cases hkind.symm.trans hother
      | directory hother => cases hkind.symm.trans hother
      | pattern _ hotherParse hotherPerm =>
          obtain rfl := Except.ok.inj (hparse.symm.trans hotherParse)
          exact hperm.trans hotherPerm.symm

end Expansion

section Reordered

variable {view other : FileView Id} (hreordered : Reordered view other)
include hreordered

theorem isFaulty_iff (argument : Text) : IsFaulty other argument ↔ IsFaulty view argument := by
  rw [IsFaulty, IsFaulty, hreordered.kind?_eq]

theorem isReadable_of_reordered {argument : Text} (hreadable : IsReadable view argument) :
    IsReadable other argument := by
  intro hkind
  obtain ⟨names, hentries⟩ := hreadable ((hreordered.kind?_eq argument).trans hkind)
  have hnames := hreordered.sameNames argument
  rw [hentries] at hnames
  generalize other.entries argument = others at hnames
  cases hnames with
  | ok => exact ⟨_, rfl⟩

theorem Expansion.of_reordered {extensions : List Text} {argument : Text} {expansion : List Text}
    (hexpansion : Expansion other extensions argument expansion) :
    Expansion view extensions argument expansion := by
  have hkindEq := hreordered.kind?_eq argument
  cases hexpansion with
  | file hkind => exact .file (hkindEq.trans hkind)
  | @directory others _ hkind hothers hperm hordered =>
      have hpick : pick view extensions argument = pick other extensions argument := by
        funext name
        rw [pick, pick, hreordered.kind?_eq]
      have hnames := hreordered.sameNames argument
      rw [hothers] at hnames
      generalize hentries : view.entries argument = names at hnames
      cases hnames with
      | ok hsame =>
          refine .directory (hkindEq.trans hkind) hentries ?_ hordered
          rw [hpick]
          exact hperm.trans (hsame.symm.filterMap _)
  | pattern hkind hparse hperm hordered =>
      exact .pattern (hkindEq.trans hkind) hparse
        (hperm.trans (Glob.files_perm hreordered _).symm) hordered

end Reordered

section Arguments

variable {view : FileView Id} {extensions arguments : List Text}

theorem run_paths_of_faulty (hreadable : ∀ argument ∈ arguments, IsReadable view argument)
    {argument : Text} (hmem : argument ∈ arguments) (hfaulty : IsFaulty view argument) :
    ∃ error, (paths view extensions arguments).run = .error error := by
  obtain ⟨before, first, after, rfl, ⟨hkind, fault, hparse⟩, hbefore⟩ := exists_first hmem hfaulty
  have hearlier : ∀ earlier ∈ before, ∃ expansion,
      (ofArgument view extensions earlier).run = .ok expansion := by
    intro earlier hearlier
    obtain ⟨expansion, hexpansion, -⟩ := exists_expansion extensions (hbefore earlier hearlier)
      (hreadable earlier (List.mem_append_left _ hearlier))
    exact ⟨expansion, hexpansion⟩
  have herror := run_inOrder_of_error hearlier
    (run_ofArgument_of_faulty extensions hkind hparse) after
  refine ⟨.invalidPattern first fault, ?_⟩
  simp [paths, herror]

private theorem exists_expansions (hreadable : ∀ argument ∈ arguments, IsReadable view argument)
    (hnot : ∀ argument ∈ arguments, ¬ IsFaulty view argument) :
    ∃ expansions, (paths view extensions arguments).run = .ok (unique expansions.flatten) ∧
      List.Forall₂ (Expansion view extensions) arguments expansions := by
  have hexpansions : ∃ expansions,
      List.Forall₂ (fun argument expansion =>
        (ofArgument view extensions argument).run = .ok expansion) arguments expansions ∧
      List.Forall₂ (Expansion view extensions) arguments expansions := by
    induction arguments with
    | nil => exact ⟨[], .nil, .nil⟩
    | cons argument rest ih =>
        rw [List.forall_mem_cons] at hreadable hnot
        obtain ⟨expansion, hrun, hexpansion⟩ :=
          exists_expansion extensions hnot.1 hreadable.1
        obtain ⟨expansions, hruns, hexpansions⟩ := ih hreadable.2 hnot.2
        exact ⟨expansion :: expansions, .cons hrun hruns, .cons hexpansion hexpansions⟩
  obtain ⟨expansions, hruns, hexpansions⟩ := hexpansions
  exact ⟨expansions, by simp [paths, run_inOrder_of_forall₂ hruns], hexpansions⟩

private theorem map_components_flatten_eq {left right : List (List Text)}
    (hleft : List.Forall₂ (Expansion view extensions) arguments left)
    (hright : List.Forall₂ (Expansion view extensions) arguments right) :
    left.flatten.map components = right.flatten.map components := by
  induction hleft generalizing right with
  | nil =>
      cases hright
      rfl
  | cons hfirst hrest ih =>
      cases hright with
      | cons hother hothers =>
          rw [List.flatten_cons, List.flatten_cons, List.map_append, List.map_append, ih hothers,
            map_components_eq_of_perm hfirst.inOrder hother.inOrder (hfirst.perm hother)]

def OneSpelling (paths : List Text) : Prop :=
  ∀ left ∈ paths, ∀ right ∈ paths, components left = components right → left = right

private theorem expansions_eq {left right : List (List Text)}
    (hleft : List.Forall₂ (Expansion view extensions) arguments left)
    (hright : List.Forall₂ (Expansion view extensions) arguments right)
    (hspelled : ∀ expansion ∈ left, OneSpelling expansion) : left = right := by
  induction hleft generalizing right with
  | nil =>
      cases hright
      rfl
  | cons hfirst hrest ih =>
      cases hright with
      | cons hother hothers =>
          rw [List.forall_mem_cons] at hspelled
          rw [ih hothers hspelled.2,
            eq_of_perm hfirst.inOrder hother.inOrder (hfirst.perm hother) hspelled.1]

end Arguments

/-- A selection fails if some argument is faulty.  Otherwise it is the files of the arguments, each
once, where it comes first; no order in which directories are listed shows in it, but where an
argument has two spellings of one path. -/
theorem paths_keep_first_of_expansions (view : FileView Id) (extensions arguments : List Text)
    (hreadable : ∀ argument ∈ arguments, IsReadable view argument) (other : FileView Id)
    (hreordered : Reordered view other) :
    ((∃ error, (paths other extensions arguments).run = .error error) ↔
      ∃ argument ∈ arguments, IsFaulty view argument) ∧
    ((∀ argument ∈ arguments, ¬ IsFaulty view argument) →
      ∃ expansions, List.Forall₂ (Expansion view extensions) arguments expansions) ∧
    ∀ selected, (paths other extensions arguments).run = .ok selected →
      (selected.map components).Nodup ∧
      ∀ expansions, List.Forall₂ (Expansion view extensions) arguments expansions →
        selected.map components = (expansions.flatten.map components).eraseDups ∧
        ((∀ expansion ∈ expansions, OneSpelling expansion) →
          selected = unique expansions.flatten) := by
  have hotherReadable : ∀ argument ∈ arguments, IsReadable other argument :=
    fun argument hmem => isReadable_of_reordered hreordered (hreadable argument hmem)
  have hselected : (∀ argument ∈ arguments, ¬ IsFaulty view argument) → ∃ expansions,
      (paths other extensions arguments).run = .ok (unique expansions.flatten) ∧
        List.Forall₂ (Expansion view extensions) arguments expansions := by
    intro hnot
    simp only [← isFaulty_iff hreordered] at hnot
    obtain ⟨expansions, hrun, hexpansions⟩ := exists_expansions hotherReadable hnot
    exact ⟨expansions, hrun, hexpansions.imp fun _ _ => .of_reordered hreordered⟩
  have hfails : (∃ error, (paths other extensions arguments).run = .error error) ↔
      ∃ argument ∈ arguments, IsFaulty view argument := by
    constructor
    · rintro ⟨error, herror⟩
      by_contra hnone
      obtain ⟨expansions, hrun, -⟩ :=
        hselected fun argument hmem hfaulty => hnone ⟨argument, hmem, hfaulty⟩
      cases herror.symm.trans hrun
    · rintro ⟨argument, hmem, hfaulty⟩
      exact run_paths_of_faulty hotherReadable hmem ((isFaulty_iff hreordered argument).mpr hfaulty)
  refine ⟨hfails, fun hnot => ?_, fun selected hrun => ?_⟩
  · obtain ⟨expansions, -, hexpansions⟩ := hselected hnot
    exact ⟨expansions, hexpansions⟩
  · have hnot : ∀ argument ∈ arguments, ¬ IsFaulty view argument := by
      intro argument hmem hfaulty
      obtain ⟨error, herror⟩ := hfails.mpr ⟨argument, hmem, hfaulty⟩
      cases herror.symm.trans hrun
    obtain ⟨own, hown, hownExpansions⟩ := hselected hnot
    obtain rfl := Except.ok.inj (hown.symm.trans hrun)
    refine ⟨nodup_map_components_unique _, fun expansions hexpansions => ⟨?_, fun hspelled => ?_⟩⟩
    · rw [map_components_unique, map_components_flatten_eq hownExpansions hexpansions]
    · rw [expansions_eq hexpansions hownExpansions hspelled]

def backwards (view : FileView Id) : FileView Id :=
  { view with entries := fun path => (view.entries path).run.map List.reverse }

private theorem reordered_backwards (view : FileView Id) : Reordered view (backwards view) where
  kind?_eq _ := rfl
  sameNames path := by
    change SameNames (view.entries path).run ((view.entries path).run.map List.reverse)
    cases (view.entries path).run with
    | error fault => exact .error fault
    | ok names => exact .ok (List.reverse_perm names).symm

def scripts : FileTree :=
  ⟨["w".toList], [], [(["w".toList, "b.js".toList], []), (["w".toList, "a.js".toList], []),
    (["w".toList, "d".toList, "c.js".toList], []), (["w".toList, "d".toList, "b.js".toList], [])]⟩

/-- A script by a roundabout path, its directory, and a pattern. -/
def overlapping : List Text :=
  ["d/./c.js".toList, "d".toList, "*.js".toList]

theorem paths_scripts_backwards :
    (∀ argument ∈ overlapping, IsReadable (scripts.view []) argument) ∧
      Reordered (scripts.view []) (backwards (scripts.view [])) ∧
      (paths (backwards (scripts.view [])) ["js".toList] overlapping).run =
        .ok ["d/./c.js".toList, "d/b.js".toList, "a.js".toList, "b.js".toList] := by
  have hfile : scripts.kind? "d/./c.js".toList = some .file := by decide +kernel
  have hdirectory : scripts.kind? "d".toList = some .directory := by decide +kernel
  have hpattern : scripts.kind? "*.js".toList = none := by decide +kernel
  have hentries : scripts.entries "d".toList = .ok ["c.js".toList, "b.js".toList] := by
    decide +kernel
  have hreadable : ∀ argument ∈ overlapping, IsReadable (scripts.view []) argument := by
    intro argument hmem hkind
    simp only [overlapping, List.mem_cons, List.not_mem_nil, or_false] at hmem
    rcases hmem with rfl | rfl | rfl
    · cases hfile.symm.trans hkind
    · exact ⟨_, hentries⟩
    · cases hpattern.symm.trans hkind
  have hexpansions : List.Forall₂ (Expansion (scripts.view []) ["js".toList]) overlapping
      [["d/./c.js".toList], ["d/b.js".toList, "d/c.js".toList],
        ["a.js".toList, "b.js".toList]] := by
    refine .cons (.file hfile) (.cons (.directory hdirectory hentries ?_ ?_)
      (.cons (.pattern hpattern rfl ?_ ?_) .nil))
    · decide +kernel
    · unfold InOrder
      decide +kernel
    · decide +kernel
    · unfold InOrder
      decide +kernel
  obtain ⟨hfails, -, hselected⟩ := paths_keep_first_of_expansions (scripts.view []) ["js".toList]
    overlapping hreadable (backwards (scripts.view [])) (reordered_backwards _)
  refine ⟨hreadable, reordered_backwards _, ?_⟩
  cases hrun : (paths (backwards (scripts.view [])) ["js".toList] overlapping).run with
  | error error =>
      obtain ⟨argument, hmem, hkind, fault, hparse⟩ := hfails.mp ⟨error, hrun⟩
      simp only [overlapping, List.mem_cons, List.not_mem_nil, or_false] at hmem
      rcases hmem with rfl | rfl | rfl
      · cases hfile.symm.trans hkind
      · cases hdirectory.symm.trans hkind
      · cases hparse
  | ok selected =>
      rw [((hselected selected hrun).2 _ hexpansions).2 (by unfold OneSpelling; decide +kernel)]
      decide +kernel

end Docblock.Selection
