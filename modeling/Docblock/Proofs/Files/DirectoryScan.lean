import Docblock.Files.Selection
import Docblock.Proofs.Language.Table
import Docblock.Proofs.Run.Contract

namespace Docblock

/-! What is selected from a directory, against the table's own notion of a supported file.  The
two look at a name in different ways, and agree where its extension is plain. -/

namespace Path

theorem extension?_eq_some_iff {name extension : Text} :
    extension? name = some extension ↔
      ∃ stem, name = stem ++ '.' :: extension ∧ stem ≠ [] ∧ '.' ∉ extension := by
  have hextension : extension? name =
      if name.length ≤ (Text.afterLast '.' name).length + 1 then none
      else some (Text.afterLast '.' name) := rfl
  rw [hextension]
  constructor
  · intro hsome
    split at hsome
    · contradiction
    · rename_i hlonger
      obtain rfl := Option.some.inj hsome
      by_cases hdot : '.' ∈ name
      · obtain ⟨stem, hname, hnot⟩ := Text.exists_append_afterLast hdot
        refine ⟨stem, hname, fun hnil => hlonger ?_, hnot⟩
        have hlength := congrArg List.length hname
        rw [hnil, List.nil_append, List.length_cons] at hlength
        exact Nat.le_of_eq hlength
      · rw [Text.afterLast_of_not_mem hdot] at hlonger
        omega
  · rintro ⟨stem, rfl, hne, hnot⟩
    have hpositive := List.length_pos_iff.mpr hne
    rw [Text.afterLast_append hnot, if_neg]
    rw [List.length_append, List.length_cons]
    omega

theorem extension?_join (directory name : Text) :
    FileName.extension? (join directory name) = FileName.extension? name := by
  apply FileName.extension?_congr
  unfold join
  split
  · rename_i hends
    rcases hends with rfl | hslash
    · rfl
    · obtain ⟨parent, rfl⟩ := List.getLast?_eq_some_iff.mp hslash
      rw [List.append_assoc, List.singleton_append, FileName.base_append_slash]
  · exact FileName.base_append_slash directory name

theorem join_inj {directory name other : Text}
    (hjoin : join directory name = join directory other) :
    name = other := by
  unfold join at hjoin
  split at hjoin
  · exact List.append_cancel_left hjoin
  · exact (List.cons.inj (List.append_cancel_left hjoin)).2

end Path

namespace Settings

theorem exists_unsupported_iff (settings : Settings) (file : SourceFile) :
    (∃ extension, settings.statusOf file = .unsupported extension) ↔
      settings.table.forFile? file.name = none := by
  constructor
  · rintro ⟨extension, hstatus⟩
    cases hlanguage : settings.table.forFile? file.name with
    | none => rfl
    | some language =>
        rw [statusOf, DocFile.ofSource, hlanguage] at hstatus
        cases hparse : DocFile.parse .standard language file.name file.text with
        | error fault => simp [hparse, Except.mapError, FileStatus.ofResult] at hstatus
        | ok parsed =>
            simp only [hparse, Except.mapError, FileStatus.ofResult] at hstatus
            split at hstatus <;> contradiction
  · exact fun hnone => ⟨_, statusOf_of_forFile?_none hnone⟩

end Settings

namespace Selection

private theorem filterMapM_eq_filterMap {α β : Type} (action : α → Id (Option β)) (items : List α) :
    (items.filterMapM action : Id (List β)) = items.filterMap action := by
  induction items with
  | nil => rfl
  | cons item rest ih =>
      rw [List.filterMapM_cons, List.filterMap_cons, ih]
      cases hitem : action item <;> rfl

def pick (view : FileView Id) (extensions : List Text) (directory name : Text) : Option Text :=
  let kind : Option FileKind := view.kind? (Path.join directory name)
  if kind = some .file then
    if hasExtension extensions name then some (Path.join directory name) else none
  else none

private theorem pick_eq_some_iff {view : FileView Id} {extensions : List Text}
    {directory name path : Text} :
    pick view extensions directory name = some path ↔
      path = Path.join directory name ∧ view.kind? path = some .file ∧
        hasExtension extensions name = true := by
  unfold pick
  dsimp only
  split
  · rename_i hfile
    split
    · rename_i hextension
      rw [Option.some.injEq]
      constructor
      · rintro rfl
        exact ⟨rfl, hfile, hextension⟩
      · exact fun hpath => hpath.1.symm
    · rename_i hextension
      exact ⟨nofun, fun hpath => absurd hpath.2.2 hextension⟩
  · rename_i hfile
    exact ⟨nofun, fun hpath => absurd (hpath.1 ▸ hpath.2.1) hfile⟩

theorem ofArgument_directory {view : FileView Id} {directory : Text} {names : List Text}
    (hkind : view.kind? directory = some .directory) (hentries : view.entries directory = .ok names)
    (extensions : List Text) :
    (ofArgument view extensions directory : Id (Except Error (List Text))) =
      .ok (Path.sort (names.filterMap (pick view extensions directory))) := by
  simp only [ofArgument, hkind, inDirectory, hentries, bind, pure, filterMapM_eq_filterMap]
  rfl

theorem mem_sort_filterMap_pick {view : FileView Id} {extensions names : List Text}
    {directory path : Text} :
    path ∈ Path.sort (names.filterMap (pick view extensions directory)) ↔
      ∃ name ∈ names, path = Path.join directory name ∧ view.kind? path = some .file ∧
        hasExtension extensions name = true := by
  rw [Path.sort, List.mem_mergeSort, List.mem_filterMap]
  simp only [pick_eq_some_iff]

theorem hasExtension_iff {table : LanguageTable} (hkept : table.Kept) {name : Text} :
    hasExtension table.extensions name = true ↔
      ∃ stem extension, name = stem ++ '.' :: extension ∧ stem ≠ [] ∧ '.' ∉ extension ∧
        extension.map Char.toLower ∈ table.extensions := by
  have hknown : ∀ known ∈ table.extensions, known.map foldChar = known := by
    intro known hmem
    obtain ⟨⟨key, language⟩, hentry, rfl⟩ := List.mem_map.mp hmem
    exact Text.map_toLower_of_lower_eq_self (hkept.lower_eq key language hentry)
  have hany : ∀ extension : Text,
      (table.extensions.any fun known => known.map foldChar = extension.map foldChar) = true ↔
        extension.map Char.toLower ∈ table.extensions := by
    intro extension
    rw [List.any_eq_true]
    constructor
    · rintro ⟨known, hmem, hsame⟩
      rw [decide_eq_true_eq, hknown known hmem] at hsame
      exact hsame ▸ hmem
    · exact fun hmem => ⟨_, hmem, decide_eq_true (hknown _ hmem)⟩
  rw [hasExtension, Option.any_eq_true]
  simp only [hany, Path.extension?_eq_some_iff]
  constructor
  · rintro ⟨extension, ⟨stem, hname, hne, hnot⟩, hmem⟩
    exact ⟨stem, extension, hname, hne, hnot, hmem⟩
  · rintro ⟨stem, extension, hname, hne, hnot, hmem⟩
    exact ⟨extension, ⟨stem, hname, hne, hnot⟩, hmem⟩

/-- Whether a name, if it has a dot, has its last one behind something, and behind it neither a
separator nor a capital beyond ASCII. -/
def IsPlain (name : Text) : Prop :=
  ∀ stem extension, name = stem ++ '.' :: extension → '.' ∉ extension →
    stem ≠ [] ∧ ∀ c ∈ extension, isSeparator c = false ∧ (c.toNat < 0x80 ∨ Text.IsLower c)

private theorem hasExtension_iff_of_isPlain {table : LanguageTable} (hkept : table.Kept)
    {name : Text}
    (hplain : IsPlain name) :
    hasExtension table.extensions name = true ↔ (table.forFile? name).isSome = true := by
  rw [hasExtension_iff hkept, Option.isSome_iff_exists]
  constructor
  · rintro ⟨stem, extension, hname, -, hnot, hmem⟩
    obtain ⟨-, hchars⟩ := hplain stem extension hname hnot
    obtain ⟨⟨key, language⟩, hentry, hkey⟩ := List.mem_map.mp hmem
    have hlower : Text.lower extension = key :=
      (Text.lowerFrom_eq_map_toLower fun c hc => (hchars c hc).2).trans hkey.symm
    have hne : key ≠ [] := by
      have hvalid := Language.extension_of_fault?_eq_none (hkept.valid key language hentry)
      exact hkept.extension_eq key language hentry ▸ hvalid.1
    refine ⟨language, hkept.forFile?_eq_some_iff.mpr ⟨stem, extension, hname, ?_, ?_, ?_⟩⟩
    · rintro rfl
      exact hne hlower.symm
    · intro c hc
      refine ⟨fun heq => hnot (heq ▸ hc), ?_⟩
      simpa [isSeparator] using (hchars c hc).1
    · rw [hlower]
      exact hentry
  · rintro ⟨language, hlanguage⟩
    obtain ⟨stem, extension, hname, -, hchars, hentry⟩ := hkept.forFile?_eq_some_iff.mp hlanguage
    have hnot : '.' ∉ extension := fun hdot => (hchars '.' hdot).1 rfl
    obtain ⟨hne, hplain⟩ := hplain stem extension hname hnot
    have hlower : Text.lower extension = extension.map Char.toLower :=
      Text.lowerFrom_eq_map_toLower fun c hc => (hplain c hc).2
    refine ⟨stem, extension, hname, hne, hnot, ?_⟩
    rw [← hlower]
    exact List.mem_map.mpr ⟨_, hentry, rfl⟩

private theorem forFile?_join (table : LanguageTable) (directory name : Text) :
    table.forFile? (Path.join directory name) = table.forFile? name := by
  rw [LanguageTable.forFile?, Path.extension?_join]
  rfl

/-- From a directory come the files whose last dot is not their first character and is followed
by a known extension, with ASCII letters of either case alike.  Of the files with plain names
these are the ones that are supported when they are named one by one. -/
theorem scan_selects_by_extension (start : LanguageTable)
    (hstart : start = .builtin ∨ start = .empty) (history : List LanguageTable.Update)
    {view : FileView Id} {directory : Text} {names : List Text}
    (hkind : view.kind? directory = some .directory)
    (hentries : view.entries directory = .ok names) :
    let table := history.foldl LanguageTable.after start
    ∃ selected,
      (ofArgument view table.extensions directory : Id (Except Error (List Text))) =
        .ok selected ∧
      (∀ path, path ∈ selected ↔
        ∃ name ∈ names, path = Path.join directory name ∧ view.kind? path = some .file ∧
          ∃ stem extension, name = stem ++ '.' :: extension ∧ stem ≠ [] ∧ '.' ∉ extension ∧
            extension.map Char.toLower ∈ table.extensions) ∧
      ∀ name ∈ names, IsPlain name →
        view.kind? (Path.join directory name) = some .file →
        (Path.join directory name ∈ selected ↔
          (table.forFile? (Path.join directory name)).isSome = true) ∧
        ∀ settings : Settings, settings.table = table → ∀ text,
          (Path.join directory name ∈ selected ↔
            ∀ extension, settings.statusOf ⟨Path.join directory name, text⟩ ≠
              .unsupported extension) := by
  intro table
  have hkept : table.Kept := LanguageTable.kept_of_history hstart history
  refine ⟨_, ofArgument_directory hkind hentries table.extensions, fun path => ?_, ?_⟩
  · rw [mem_sort_filterMap_pick]
    simp only [hasExtension_iff hkept]
  · intro name hname hplain hfile
    have hselected : Path.join directory name ∈
        Path.sort (names.filterMap (pick view table.extensions directory)) ↔
          (table.forFile? (Path.join directory name)).isSome = true := by
      rw [forFile?_join, ← hasExtension_iff_of_isPlain hkept hplain, mem_sort_filterMap_pick]
      constructor
      · rintro ⟨other, -, hjoin, -, hextension⟩
        rwa [Path.join_inj hjoin]
      · exact fun hextension => ⟨name, hname, rfl, hfile, hextension⟩
    refine ⟨hselected, fun settings htable text => hselected.trans ?_⟩
    have hunsupported := settings.exists_unsupported_iff ⟨Path.join directory name, text⟩
    rw [htable] at hunsupported
    rw [Option.isSome_iff_ne_none, Ne, ← hunsupported, not_exists]

private theorem isPlain_script : IsPlain "m.JS".toList := by
  intro stem extension hname hnot
  have hlast : extension = "JS".toList := by
    rw [← Text.afterLast_append hnot stem, ← hname]
    decide
  subst hlast
  refine ⟨?_, by simp [isSeparator]⟩
  rintro rfl
  contradiction

def plainNames : FileTree :=
  ⟨["w".toList], [], [(["w".toList, "d".toList, "m.JS".toList], []),
    (["w".toList, "d".toList, "note.txt".toList], [])]⟩

theorem scan_selects_plainNames :
    ∃ selected,
      (ofArgument (plainNames.view []) LanguageTable.builtin.extensions "d".toList :
        Id (Except Error (List Text))) = .ok selected ∧
      "d/m.JS".toList ∈ selected := by
  have hkind : (plainNames.view []).kind? "d".toList = some .directory := by
    change plainNames.kind? "d".toList = some .directory
    decide +kernel
  have hentries : (plainNames.view []).entries "d".toList =
      .ok ["m.JS".toList, "note.txt".toList] := by
    change plainNames.entries "d".toList = .ok ["m.JS".toList, "note.txt".toList]
    decide +kernel
  have hfile : (plainNames.view []).kind? "d/m.JS".toList = some .file := by
    change plainNames.kind? "d/m.JS".toList = some .file
    decide +kernel
  obtain ⟨selected, hselected, -, hagree⟩ :=
    scan_selects_by_extension .builtin (.inl rfl) [] hkind hentries
  refine ⟨selected, hselected, ?_⟩
  obtain ⟨hsupported, -⟩ := hagree "m.JS".toList (by simp) isPlain_script hfile
  exact hsupported.mpr (by decide +kernel)

/-- A directory with a script whose name is nothing but its extension, and one whose extension
is a capital beyond ASCII. -/
def oddNames : FileTree :=
  ⟨["w".toList], [], [(["w".toList, "d".toList, ".js".toList], []),
    (["w".toList, "d".toList, "a.Ж".toList], [])]⟩

def cyrillicHistory : List LanguageTable.Update :=
  [.insert ⟨"ж".toList, "/*".toList, "*/".toList, none, []⟩]

/-- Supported files of a directory can be missed. -/
theorem scan_misses_oddNames :
    let table := cyrillicHistory.foldl LanguageTable.after .builtin
    let view := oddNames.view []
    (ofArgument view table.extensions "d".toList : Id (Except Error (List Text))) = .ok [] ∧
      (view.kind? "d/.js".toList = some .file ∧
        (table.forFile? "d/.js".toList).isSome = true) ∧
      view.kind? "d/a.Ж".toList = some .file ∧
        (table.forFile? "d/a.Ж".toList).isSome = true := by
  intro table view
  have hkind : view.kind? "d".toList = some .directory := by
    change oddNames.kind? "d".toList = some .directory
    decide +kernel
  have hentries : view.entries "d".toList = .ok [".js".toList, "a.Ж".toList] := by
    change oddNames.entries "d".toList = .ok [".js".toList, "a.Ж".toList]
    decide +kernel
  have hnone : [".js".toList, "a.Ж".toList].filterMap (pick view table.extensions "d".toList) =
      [] := by
    decide +kernel
  refine ⟨?_, ⟨?_, ?_⟩, ?_, ?_⟩
  · rw [ofArgument_directory hkind hentries, hnone, Path.sort, List.mergeSort_nil]
  · change oddNames.kind? "d/.js".toList = some .file
    decide +kernel
  · decide +kernel
  · change oddNames.kind? "d/a.Ж".toList = some .file
    decide +kernel
  · decide +kernel

end Selection
end Docblock
