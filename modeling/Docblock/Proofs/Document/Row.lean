import Docblock.Proofs.Document.Layout
import Docblock.Proofs.Text.Lines
import Docblock.Proofs.Text.Uppercase
import Docblock.Tagging

namespace Docblock.Markdown

open Docblock.Text

/-! A custom field is a row of a table with two columns.  Main statement: whatever its content is,
it stays on its line and its pipes part no columns, but a backslash at its end takes the pipe that
closes the row into the last column. -/

/-- Whether a character parts columns: pipes do, unless they stand right behind a backslash. -/
def separates (before : Option Char) (c : Char) : Bool :=
  c == '|' && before != some '\\'

def separators (row : Text) : Nat :=
  ((none :: row.map some).zip row).countP fun place => separates place.1 place.2

/-- What stands between the separators of a text that has a character in front of it. -/
def columnsBehind (before : Option Char) : Text → List Text
  | [] => [[]]
  | c :: rest =>
      if separates before c then [] :: columnsBehind (some c) rest
      else (columnsBehind (some c) rest).modifyHead (c :: ·)

def columns (row : Text) : List Text :=
  columnsBehind none row

private theorem length_columnsBehind (before : Option Char) (text : Text) :
    (columnsBehind before text).length =
      ((before :: text.map some).zip text).countP (fun place => separates place.1 place.2) + 1 := by
  induction text generalizing before with
  | nil => rfl
  | cons c rest ih =>
      rw [columnsBehind, List.map_cons, List.zip_cons_cons, List.countP_cons]
      cases hseparates : separates before c with
      | true =>
          rw [if_pos rfl, if_pos rfl, List.length_cons, ih]
      | false =>
          rw [if_neg Bool.false_ne_true, if_neg Bool.false_ne_true, List.length_modifyHead, ih]

theorem length_columns (row : Text) : (columns row).length = separators row + 1 :=
  length_columnsBehind none row

private theorem separates_pipe {before : Option Char} (hbefore : before ≠ some '\\') :
    separates before '|' = true := by
  simpa [separates] using hbefore

theorem columnsBehind_pipe {before : Option Char} (hbefore : before ≠ some '\\') (rest : Text) :
    columnsBehind before ('|' :: rest) = [] :: columnsBehind (some '|') rest :=
  if_pos (separates_pipe hbefore)

theorem columnsBehind_append {before : Option Char} {text : Text}
    (hwhole : columnsBehind before text = [text]) (rest : Text) :
    columnsBehind before (text ++ rest) =
      (columnsBehind (text.getLast?.or before) rest).modifyHead (text ++ ·) := by
  induction text generalizing before with
  | nil =>
      change columnsBehind before rest = (columnsBehind before rest).modifyHead id
      rw [List.modifyHead_id]
      rfl
  | cons c text ih =>
      rw [columnsBehind] at hwhole
      cases hseparates : separates before c with
      | true =>
          rw [hseparates, if_pos rfl] at hwhole
          cases hwhole
      | false =>
          rw [hseparates, if_neg Bool.false_ne_true] at hwhole
          have htext : columnsBehind (some c) text = [text] := by
            cases hcolumns : columnsBehind (some c) text with
            | nil => rw [hcolumns] at hwhole; cases hwhole
            | cons first others => rw [hcolumns] at hwhole; cases hwhole; rfl
          have hlast : (c :: text).getLast?.or before = text.getLast?.or (some c) := by
            rw [List.getLast?_cons]
            cases text.getLast? <;> rfl
          rw [List.cons_append, columnsBehind, hseparates, if_neg Bool.false_ne_true, ih htext,
            List.modifyHead_modifyHead, hlast]
          rfl

theorem columnsBehind_of_not_mem {text : Text} (hpipe : '|' ∉ text) (before : Option Char) :
    columnsBehind before text = [text] := by
  induction text generalizing before with
  | nil => rfl
  | cons c rest ih =>
      rw [List.mem_cons, not_or] at hpipe
      have hseparates : separates before c = false := by
        simp [separates, Ne.symm hpipe.1]
      rw [columnsBehind, hseparates, ih hpipe.2]
      rfl

private theorem columnsBehind_cellChar (c : Char) (before : Option Char) :
    columnsBehind before (cellChar c) = [cellChar c] := by
  unfold cellChar
  split
  · rw [columnsBehind, columnsBehind]
    simp [separates, columnsBehind]
  · split
    · exact columnsBehind_of_not_mem (by decide) before
    · next hpipe hbreak => exact columnsBehind_of_not_mem (by simpa using Ne.symm hpipe) before

private theorem tableCell_cons (c : Char) (rest : Text) :
    tableCell (c :: rest) = cellChar c ++ tableCell rest :=
  List.flatMap_cons

theorem columnsBehind_tableCell (content : Text) (before : Option Char) :
    columnsBehind before (tableCell content) = [tableCell content] := by
  induction content generalizing before with
  | nil => rfl
  | cons c rest ih =>
      rw [tableCell_cons, columnsBehind_append (columnsBehind_cellChar c before), ih]
      rfl

private theorem cellChar_ne_nil (c : Char) : cellChar c ≠ [] := by
  unfold cellChar
  split
  · exact List.cons_ne_nil _ _
  · split <;> exact List.cons_ne_nil _ _

private theorem getLast?_cellChar_eq_iff (c : Char) :
    (cellChar c).getLast? = some '\\' ↔ c = '\\' := by
  unfold cellChar
  split
  · next hpipe => simp [hpipe]
  · split
    · next hbreak => simp [hbreak]
    · simp

theorem getLast?_tableCell_eq_iff (content : Text) :
    (tableCell content).getLast? = some '\\' ↔ content.getLast? = some '\\' := by
  rcases List.eq_nil_or_concat' content with rfl | ⟨front, c, rfl⟩
  · rfl
  · rw [tableCell, List.flatMap_append, List.flatMap_singleton,
      List.getLast?_append_of_ne_nil _ (cellChar_ne_nil c), List.getLast?_concat,
      getLast?_cellChar_eq_iff, Option.some_inj]

theorem newline_not_mem_tableCell (content : Text) : '\n' ∉ tableCell content := by
  intro hmem
  obtain ⟨c, -, hmem⟩ := List.mem_flatMap.mp hmem
  unfold cellChar at hmem
  split at hmem
  · revert hmem
    decide
  · split at hmem
    · revert hmem
      decide
    · next hbreak => exact hbreak (List.mem_singleton.mp hmem).symm

private theorem mem_of_mem_splitOnP {divides : Char → Bool} {text word : Text} {c : Char}
    (hword : word ∈ text.splitOnP divides) (hmem : c ∈ word) : c ∈ text := by
  induction text generalizing word with
  | nil =>
      obtain rfl := List.mem_singleton.mp hword
      exact hmem
  | cons d rest ih =>
      rw [List.splitOnP_cons_eq_if_modifyHead] at hword
      split at hword
      · rcases List.mem_cons.mp hword with rfl | hword
        · contradiction
        · exact List.mem_cons_of_mem d (ih hword hmem)
      · cases hwords : rest.splitOnP divides with
        | nil => exact absurd hwords (List.splitOnP_ne_nil divides rest)
        | cons first others =>
            rw [hwords] at hword ih
            rcases List.mem_cons.mp hword with rfl | hword
            · rcases List.mem_cons.mp hmem with rfl | hmem
              · exact List.mem_cons_self
              · exact List.mem_cons_of_mem d (ih List.mem_cons_self hmem)
            · exact List.mem_cons_of_mem d (ih (List.mem_cons_of_mem first hword) hmem)

private theorem mem_intercalate {separator : Text} {words : List Text} {c : Char}
    (hmem : c ∈ List.intercalate separator words) :
    c ∈ separator ∨ ∃ word ∈ words, c ∈ word := by
  induction words with
  | nil => contradiction
  | cons word others ih =>
      cases others with
      | nil => exact .inr ⟨word, List.mem_cons_self, by simpa using hmem⟩
      | cons other others =>
          rw [List.intercalate_cons_cons, List.mem_append, List.mem_append] at hmem
          rcases hmem with (hword | hseparator) | hothers
          · exact .inr ⟨word, List.mem_cons_self, hword⟩
          · exact .inl hseparator
          · rcases ih hothers with hseparator | ⟨word, hword, hmem⟩
            · exact .inl hseparator
            · exact .inr ⟨word, List.mem_cons_of_mem _ hword, hmem⟩

private theorem mem_titleCase {name : Text} {c : Char} (hmem : c ∈ titleCase name) :
    c = ' ' ∨ c ∈ name ∨ IsRaised c := by
  rcases mem_intercalate hmem with hspace | ⟨word, hword, hmem⟩
  · exact .inl (List.mem_singleton.mp hspace)
  · obtain ⟨part, hpart, rfl⟩ := List.mem_map.mp hword
    right
    exact (mem_capitalize hmem).imp_left (mem_of_mem_splitOnP (List.mem_of_mem_filter hpart))

def rowHead (name : Text) : Text :=
  "**".toList ++ titleCase name ++ "**".toList

theorem tableRow_eq (name content : Text) :
    tableRow name content = '|' :: (rowHead name ++ '|' :: (tableCell content ++ ['|'])) := by
  simp [tableRow, rowHead]

private theorem getLast?_rowHead (name : Text) : (rowHead name).getLast? = some '*' :=
  List.getLast?_append_of_ne_nil _ (by decide)

theorem not_mem_rowHead {name : Text} (hname : ∀ c ∈ name, Tagging.isNameChar c = true) {c : Char}
    (hstar : c ≠ '*') (hspace : c ≠ ' ') (hnot : Tagging.isNameChar c = false)
    (hraised : ¬ IsRaised c) : c ∉ rowHead name := by
  intro hmem
  rw [rowHead, List.mem_append, List.mem_append] at hmem
  have hstars : c ∉ "**".toList := by simpa using hstar
  rcases hmem with (hmem | hmem) | hmem
  · exact hstars hmem
  · rcases mem_titleCase hmem with hc | hc | hc
    · exact hspace hc
    · rw [hname c hc] at hnot
      contradiction
    · exact hraised hc
  · exact hstars hmem

section Row

variable {name : Text} (hname : ∀ c ∈ name, Tagging.isNameChar c = true) (content : Text)
include hname

theorem newline_not_mem_tableRow : '\n' ∉ tableRow name content := by
  have hhead : '\n' ∉ rowHead name :=
    not_mem_rowHead hname (by decide) (by decide) (by decide +kernel) (by decide)
  rw [tableRow_eq]
  simp [hhead, newline_not_mem_tableCell]

theorem columns_tableRow :
    columns (tableRow name content) =
      if content.getLast? = some '\\' then [[], rowHead name, tableCell content ++ ['|']]
      else [[], rowHead name, tableCell content, []] := by
  have hhead : '|' ∉ rowHead name :=
    not_mem_rowHead hname (by decide) (by decide) (by decide +kernel) (by decide)
  rw [tableRow_eq, columns, columnsBehind_pipe (Option.some_ne_none _).symm,
    columnsBehind_append (columnsBehind_of_not_mem hhead _), getLast?_rowHead,
    columnsBehind_pipe (by decide), columnsBehind_append (columnsBehind_tableCell content _)]
  by_cases hlast : content.getLast? = some '\\'
  · rw [if_pos hlast, (getLast?_tableCell_eq_iff content).mpr hlast]
    simp [columnsBehind, separates]
  · have hbefore : (tableCell content).getLast?.or (some '|') ≠ some '\\' := by
      rw [← getLast?_tableCell_eq_iff] at hlast
      cases hcell : (tableCell content).getLast? with
      | none => decide
      | some c => rwa [hcell] at hlast
    rw [if_neg hlast, columnsBehind_pipe hbefore]
    simp [columnsBehind]

private theorem separators_tableRow :
    separators (tableRow name content) = if content.getLast? = some '\\' then 2 else 3 := by
  have hlength := length_columns (tableRow name content)
  rw [columns_tableRow hname content] at hlength
  split at hlength
  · next hlast =>
      rw [if_pos hlast]
      exact (Nat.succ.inj hlength).symm
  · next hlast =>
      rw [if_neg hlast]
      exact (Nat.succ.inj hlength).symm

end Row

def tableOf (block : FieldMap) : List Text :=
  table (block.custom.map fun field => tableRow field.1 field.2)

private theorem linesOfRows_tableOf {block : FieldMap}
    (hnames : ∀ field ∈ block.custom, ∀ c ∈ field.1, Tagging.isNameChar c = true) :
    linesOfRows (tableOf block) = tableOf block := by
  have hlines : ∀ row ∈ tableOf block, lines row = [row] := by
    intro row hrow
    apply lines_of_not_mem
    unfold tableOf table at hrow
    split at hrow
    · contradiction
    · rw [List.mem_append, List.mem_append] at hrow
      rcases hrow with (hhead | hfield) | hend
      · have hplain : ∀ row ∈ ["|Field Name|Description|".toList, "|:---:|:---:|".toList],
            '\n' ∉ row := by decide
        exact hplain row hhead
      · obtain ⟨field, hmem, rfl⟩ := List.mem_map.mp hfield
        exact newline_not_mem_tableRow (hnames field hmem) field.2
      · rw [List.mem_singleton.mp hend]
        exact List.not_mem_nil
  rw [linesOfRows, List.flatMap_congr hlines]
  exact List.flatMap_singleton' _

private theorem lines_blockLines (extension : Text) {block : FieldMap}
    (hnames : ∀ field ∈ block.custom, ∀ c ∈ field.1, Tagging.isNameChar c = true)
    (hne : blockLines extension block ≠ []) :
    lines (unlines (blockLines extension block)) =
      linesOfRows ((reservedFields block).flatMap (fieldLines extension)) ++ tableOf block ++
        linesOfRows ((codeFields block).flatMap (fieldLines extension)) := by
  have hrows : (customFields block).flatMap (fieldLines extension) =
      block.custom.map fun field => tableRow field.1 field.2 := by
    rw [customFields, List.flatMap_map, List.map_eq_flatMap]
    rfl
  rw [lines_unlines_of_ne_nil hne, blockLines_eq, hrows, ← tableOf, linesOfRows,
    List.flatMap_append, List.flatMap_append, ← linesOfRows, ← linesOfRows, ← linesOfRows,
    linesOfRows_tableOf hnames]

/-- The table of a block has a line for each custom field, and each of them is two columns unless
its content ends in a backslash. -/
theorem custom_fields_fill_rows (extension : Text) (block : FieldMap)
    (hnames : ∀ field ∈ block.custom, ∀ c ∈ field.1, Tagging.isNameChar c = true) :
    (blockLines extension block ≠ [] →
      lines (unlines (blockLines extension block)) =
        linesOfRows ((reservedFields block).flatMap (fieldLines extension)) ++ tableOf block ++
          linesOfRows ((codeFields block).flatMap (fieldLines extension))) ∧
    ∀ field ∈ block.custom,
      '\n' ∉ tableRow field.1 field.2 ∧
      (separators (tableRow field.1 field.2) = 3 ↔ field.2.getLast? ≠ some '\\') ∧
      columns (tableRow field.1 field.2) =
        if field.2.getLast? = some '\\' then [[], rowHead field.1, tableCell field.2 ++ ['|']]
        else [[], rowHead field.1, tableCell field.2, []] := by
  refine ⟨lines_blockLines extension hnames, fun field hmem => ?_⟩
  have hname := hnames field hmem
  refine ⟨newline_not_mem_tableRow hname field.2, ?_, columns_tableRow hname field.2⟩
  rw [separators_tableRow hname]
  split
  · next hlast => exact iff_of_false (by decide) (not_not_intro hlast)
  · next hlast => exact iff_of_true rfl hlast

/-- A block whose custom fields hold pipes, backslashes and line feeds. -/
def busyBlock : FieldMap :=
  .ofList [.custom "see_also-this".toList "a|b\nc".toList, .custom "path".toList "\\|x\\y".toList]

theorem custom_fields_fill_rows_busyBlock :
    (∀ field ∈ busyBlock.custom, ∀ c ∈ field.1, Tagging.isNameChar c = true) ∧
      columns (tableRow "see_also-this".toList "a|b\nc".toList) =
        [[], "**See Also This**".toList, "a\\|b<br>c".toList, []] ∧
      separators (tableRow "path".toList "\\|x\\y".toList) = 3 := by
  have hcustom : busyBlock.custom = [("see_also-this".toList, "a|b\nc".toList),
      ("path".toList, "\\|x\\y".toList)] := by
    decide
  have hnames : ∀ field ∈ busyBlock.custom, ∀ c ∈ field.1, Tagging.isNameChar c = true := by
    have hchecked : (busyBlock.custom.all fun field => field.1.all Tagging.isNameChar) = true := by
      decide +kernel
    exact fun field hmem => List.all_eq_true.mp (List.all_eq_true.mp hchecked field hmem)
  have hrows := (custom_fields_fill_rows "c".toList busyBlock hnames).2
  refine ⟨hnames, ?_, ?_⟩
  · rw [(hrows ("see_also-this".toList, "a|b\nc".toList) (by simp [hcustom])).2.2]
    decide +kernel
  · exact (hrows ("path".toList, "\\|x\\y".toList) (by simp [hcustom])).2.1.mpr (by decide)

/-- A path with a backslash at its end has no separator behind it. -/
theorem path_opens_row :
    Tagging.tagBody .standard "@path: C:\\dir\\".toList =
        .ok (.ofList [.custom "path".toList "C:\\dir\\".toList]) ∧
      tableRow "path".toList "C:\\dir\\".toList = "|**Path**|C:\\dir\\|".toList ∧
      separators (tableRow "path".toList "C:\\dir\\".toList) = 2 := by
  decide +kernel

end Docblock.Markdown
