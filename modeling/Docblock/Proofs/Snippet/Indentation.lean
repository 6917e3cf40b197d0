import Docblock.Proofs.Text.Lines
import Docblock.Snippet.Indentation

namespace Docblock.Indentation

def margin (tabCount spaceCount : Nat) : Text :=
  List.replicate tabCount '\t' ++ List.replicate spaceCount ' '

/-- Puts tabs and then spaces in front of a line that is not blank. -/
def indentLine (tabCount spaceCount : Nat) (line : Text) : Text :=
  if line.allBlank then line else margin tabCount spaceCount ++ line

def indent (tabCount spaceCount : Nat) (text : Text) : Text :=
  Text.unlines (text.lines.map (indentLine tabCount spaceCount))

variable (tabCount spaceCount : Nat)

theorem isIndent_of_mem_margin {c : Char} (hmem : c ∈ margin tabCount spaceCount) :
    isIndent c = true := by
  rw [margin, List.mem_append, List.mem_replicate, List.mem_replicate] at hmem
  rcases hmem with ⟨-, rfl⟩ | ⟨-, rfl⟩ <;> rfl

theorem isBlank_of_isIndent {c : Char} (hindent : isIndent c = true) : isBlank c = true := by
  rw [isIndent, Bool.or_eq_true, decide_eq_true_eq, decide_eq_true_eq] at hindent
  rcases hindent with rfl | rfl <;> rfl

theorem allBlank_margin : (margin tabCount spaceCount).allBlank = true := by
  rw [Text.allBlank, List.all_eq_true]
  intro c hc
  exact isBlank_of_isIndent (isIndent_of_mem_margin tabCount spaceCount hc)

theorem indentLine_of_nonblank {line : Text} (hline : line.allBlank = false) :
    indentLine tabCount spaceCount line = margin tabCount spaceCount ++ line := by
  simp [indentLine, hline]

theorem allBlank_indentLine (line : Text) :
    (indentLine tabCount spaceCount line).allBlank = line.allBlank := by
  have hmargin := allBlank_margin tabCount spaceCount
  cases hline : line.allBlank with
  | true => simp [indentLine, hline]
  | false =>
      rw [indentLine_of_nonblank tabCount spaceCount hline]
      simp only [Text.allBlank] at hmargin hline ⊢
      rw [List.all_append, hmargin, hline]
      rfl

private theorem not_mem_indentLine {c : Char} (hc : isIndent c = false) {line : Text}
    (hline : c ∉ line) : c ∉ indentLine tabCount spaceCount line := by
  rw [indentLine]
  split
  · exact hline
  · intro hmem
    rcases List.mem_append.mp hmem with hmargin | hrest
    · rw [isIndent_of_mem_margin tabCount spaceCount hmargin] at hc
      contradiction
    · exact hline hrest

theorem getLast?_indentLine (line : Text) :
    (indentLine tabCount spaceCount line).getLast? = line.getLast? := by
  rw [indentLine]
  split
  · rfl
  · next hblank =>
      rw [List.getLast?_append]
      cases hlast : line.getLast? with
      | none =>
          rw [List.getLast?_eq_none_iff.mp hlast] at hblank
          contradiction
      | some c => rfl

theorem lines_indent (text : Text) :
    (indent tabCount spaceCount text).lines =
      text.lines.map (indentLine tabCount spaceCount) := by
  apply Text.lines_unlines
  · intro row hrow
    obtain ⟨line, hline, rfl⟩ := List.mem_map.mp hrow
    exact not_mem_indentLine tabCount spaceCount rfl (Text.not_mem_of_mem_lines hline)
  · simpa using Text.lines_ne_nil text

theorem indentOf_margin (line : Text) :
    indentOf (margin tabCount spaceCount ++ line) =
      margin tabCount spaceCount ++ indentOf line :=
  List.takeWhile_append_of_pos fun _ hc => isIndent_of_mem_margin tabCount spaceCount hc

theorem tabs_margin (line : Text) :
    tabs (margin tabCount spaceCount ++ line) = tabCount + tabs line := by
  rw [tabs, indentOf_margin, List.count_append, margin, List.count_append]
  simp [List.count_replicate, tabs]

theorem spaces_margin (line : Text) :
    spaces (margin tabCount spaceCount ++ line) = spaceCount + spaces line := by
  rw [spaces, indentOf_margin, List.count_append, margin, List.count_append]
  simp [List.count_replicate, spaces]

theorem stripLine_zero (line : Text) : stripLine 0 0 line = line := by
  induction line with
  | nil => rfl
  | cons c rest ih =>
      rw [stripLine]
      split
      · exact congrArg (c :: ·) ih
      · split
        · exact congrArg (c :: ·) ih
        · rfl

private theorem stripLine_margin (line : Text) :
    stripLine tabCount spaceCount (margin tabCount spaceCount ++ line) = line := by
  have hspaces : stripLine 0 spaceCount (List.replicate spaceCount ' ' ++ line) = line := by
    induction spaceCount with
    | zero => exact stripLine_zero line
    | succ spaceCount ih =>
        rw [List.replicate_succ, List.cons_append, stripLine]
        exact ih
  rw [margin, List.append_assoc]
  induction tabCount with
  | zero => exact hspaces
  | succ tabCount ih =>
      rw [List.replicate_succ, List.cons_append, stripLine.eq_def]
      exact ih

theorem stripLine_indentLine {line : Text} (hline : line.allBlank = true → line = []) :
    stripLine tabCount spaceCount (indentLine tabCount spaceCount line) = line := by
  cases hblank : line.allBlank with
  | true =>
      rw [hline hblank]
      rfl
  | false =>
      rw [indentLine_of_nonblank tabCount spaceCount hblank]
      exact stripLine_margin tabCount spaceCount line

private theorem min?_map_add {α : Type} {items : List α} {measure : α → Nat} {item : α}
    (hmem : item ∈ items) (hzero : measure item = 0) (amount : Nat) :
    (items.map fun item => amount + measure item).min? = some amount := by
  rw [List.min?_eq_some_iff]
  constructor
  · exact List.mem_map.mpr ⟨item, hmem, by rw [hzero, Nat.add_zero]⟩
  · intro total htotal
    obtain ⟨other, -, rfl⟩ := List.mem_map.mp htotal
    exact Nat.le_add_right amount (measure other)

section Framed

variable {text : Text} {rows : List Text}
  (hlines : text.lines = [] :: (rows.map (indentLine tabCount spaceCount) ++ [[]]))
include hlines

private theorem measured_of_lines :
    measured text =
      (rows.filter fun row => !row.allBlank).map (margin tabCount spaceCount ++ ·) := by
  rw [measured, interior, hlines, List.tail_cons, List.dropLast_concat, List.filter_map]
  have hblank : (fun line => !line.allBlank) ∘ indentLine tabCount spaceCount =
      fun row => !row.allBlank := by
    funext row
    rw [Function.comp_apply, allBlank_indentLine]
  rw [hblank]
  apply List.map_congr_left
  intro row hrow
  apply indentLine_of_nonblank
  simpa using (List.mem_filter.mp hrow).2

theorem min?_measured {measure : Text → Nat} {amount : Nat}
    (hmeasure : ∀ row, measure (margin tabCount spaceCount ++ row) = amount + measure row)
    (hzero : ∃ row ∈ rows, row.allBlank = false ∧ measure row = 0) :
    ((measured text).map measure).min? = some amount := by
  obtain ⟨row, hrow, hblank, hzero⟩ := hzero
  have hmem : row ∈ rows.filter fun row => !row.allBlank := by
    simp [hrow, hblank]
  have hcounts : (measured text).map measure =
      (rows.filter fun row => !row.allBlank).map fun row => amount + measure row := by
    rw [measured_of_lines tabCount spaceCount hlines, List.map_map]
    exact congrArg (List.map · _) (funext hmeasure)
  rw [hcounts, min?_map_add hmem hzero]

private theorem sharedTabs_of_lines (htabless : ∃ row ∈ rows, row.allBlank = false ∧ tabs row = 0) :
    sharedTabs text = tabCount := by
  rw [sharedTabs, min?_measured tabCount spaceCount hlines (tabs_margin tabCount spaceCount)
    htabless, Option.getD_some]

private theorem sharedSpaces_of_lines
    (hspaceless : ∃ row ∈ rows, row.allBlank = false ∧ spaces row = 0) :
    sharedSpaces text = spaceCount := by
  rw [sharedSpaces, min?_measured tabCount spaceCount hlines (spaces_margin tabCount spaceCount)
    hspaceless, Option.getD_some]

theorem lines_normalize_of_lines (hfeed : ∀ row ∈ rows, '\n' ∉ row)
    (hblank : ∀ row ∈ rows, row.allBlank = true → row = [])
    (htabless : ∃ row ∈ rows, row.allBlank = false ∧ tabs row = 0)
    (hspaceless : ∃ row ∈ rows, row.allBlank = false ∧ spaces row = 0) :
    (normalize text).lines = [] :: (rows ++ [[]]) := by
  have hstripped : text.lines.map (stripLine tabCount spaceCount) = [] :: (rows ++ [[]]) := by
    rw [hlines, List.map_cons, List.map_append, List.map_map]
    have hrows : rows.map (stripLine tabCount spaceCount ∘ indentLine tabCount spaceCount) =
        rows.map id := by
      apply List.map_congr_left
      intro row hrow
      exact stripLine_indentLine tabCount spaceCount (hblank row hrow)
    rw [hrows, List.map_id]
    rfl
  rw [normalize, sharedTabs_of_lines tabCount spaceCount hlines htabless,
    sharedSpaces_of_lines tabCount spaceCount hlines hspaceless, hstripped]
  apply Text.lines_unlines
  · intro row hrow
    rw [List.mem_cons, List.mem_append, List.mem_singleton] at hrow
    rcases hrow with rfl | hrow | rfl
    · exact List.not_mem_nil
    · exact hfeed row hrow
    · exact List.not_mem_nil
  · exact List.cons_ne_nil _ _

end Framed

end Docblock.Indentation
