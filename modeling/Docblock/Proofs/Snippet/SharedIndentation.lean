import Docblock.Proofs.Snippet.Indentation
import Mathlib.Data.List.Forall2
import Mathlib.Data.List.TakeWhile

namespace Docblock.Indentation

theorem indent_induction {motive : Text → Prop}
    (rest : ∀ line : Text, (∀ c ∈ line.head?, isIndent c = false) → motive line)
    (tab : ∀ line, motive line → motive ('\t' :: line))
    (space : ∀ line, motive line → motive (' ' :: line)) (line : Text) : motive line := by
  induction line with
  | nil => exact rest [] (by simp)
  | cons c line ih =>
      by_cases htab : c = '\t'
      · exact htab ▸ tab line ih
      · by_cases hspace : c = ' '
        · exact hspace ▸ space line ih
        · refine rest (c :: line) ?_
          simpa [isIndent] using ⟨htab, hspace⟩

theorem indentOf_rest {line : Text} (hrest : ∀ c ∈ line.head?, isIndent c = false) :
    indentOf line = [] := by
  cases line with
  | nil => rfl
  | cons c line => exact List.takeWhile_cons_of_neg (by simp [hrest c rfl])

theorem dropWhile_rest {line : Text} (hrest : ∀ c ∈ line.head?, isIndent c = false) :
    line.dropWhile isIndent = line := by
  cases line with
  | nil => rfl
  | cons c line => exact List.dropWhile_cons_of_neg (by simp [hrest c rfl])

private theorem stripLine_rest {line : Text} (hrest : ∀ c ∈ line.head?, isIndent c = false)
    (tabCount spaceCount : Nat) : stripLine tabCount spaceCount line = line := by
  cases line with
  | nil => rfl
  | cons c line =>
      have hindent := hrest c rfl
      rw [isIndent, Bool.or_eq_false_iff, decide_eq_false_iff_not, decide_eq_false_iff_not]
        at hindent
      rw [stripLine.eq_def]
      exact (if_neg hindent.1).trans (if_neg hindent.2)

theorem indentOf_append_dropWhile (line : Text) :
    indentOf line ++ line.dropWhile isIndent = line :=
  List.takeWhile_append_dropWhile

theorem isIndent_of_mem_indentOf {line : Text} {c : Char} (hmem : c ∈ indentOf line) :
    isIndent c = true :=
  List.mem_takeWhile_imp hmem

/-- A row is a line without some of the tabs and spaces it begins with. -/
def LosesIndent (line row : Text) : Prop :=
  ∃ kept : Text, kept.Sublist (indentOf line) ∧ row = kept ++ line.dropWhile isIndent

theorem exists_kept (tabCount spaceCount : Nat) (line : Text) :
    ∃ kept : Text, kept.Sublist (indentOf line) ∧
      stripLine tabCount spaceCount line = kept ++ line.dropWhile isIndent ∧
      kept.count '\t' = tabs line - tabCount ∧ kept.count ' ' = spaces line - spaceCount := by
  induction line using indent_induction generalizing tabCount spaceCount with
  | rest line hrest =>
      refine ⟨[], List.nil_sublist _, ?_, ?_, ?_⟩
      · rw [stripLine_rest hrest, dropWhile_rest hrest, List.nil_append]
      · rw [tabs, indentOf_rest hrest, List.count_nil, Nat.zero_sub]
      · rw [spaces, indentOf_rest hrest, List.count_nil, Nat.zero_sub]
  | tab line ih =>
      have htabs : tabs ('\t' :: line) = tabs line + 1 := List.count_cons_self
      have hspaces : spaces ('\t' :: line) = spaces line := List.count_cons_of_ne (by decide)
      cases tabCount with
      | zero =>
          obtain ⟨kept, hkept, hstrip, hkeptTabs, hkeptSpaces⟩ := ih 0 spaceCount
          refine ⟨'\t' :: kept, hkept.cons_cons '\t', congrArg ('\t' :: ·) hstrip, ?_, ?_⟩
          · rw [List.count_cons_self, hkeptTabs, htabs]
            rfl
          · rw [List.count_cons_of_ne (by decide), hkeptSpaces, hspaces]
      | succ tabCount =>
          obtain ⟨kept, hkept, hstrip, hkeptTabs, hkeptSpaces⟩ := ih tabCount spaceCount
          refine ⟨kept, hkept.cons '\t', hstrip, ?_, ?_⟩
          · rw [hkeptTabs, htabs, Nat.add_sub_add_right]
          · rw [hkeptSpaces, hspaces]
  | space line ih =>
      have htabs : tabs (' ' :: line) = tabs line := List.count_cons_of_ne (by decide)
      have hspaces : spaces (' ' :: line) = spaces line + 1 := List.count_cons_self
      cases spaceCount with
      | zero =>
          obtain ⟨kept, hkept, hstrip, hkeptTabs, hkeptSpaces⟩ := ih tabCount 0
          refine ⟨' ' :: kept, hkept.cons_cons ' ', congrArg (' ' :: ·) hstrip, ?_, ?_⟩
          · rw [List.count_cons_of_ne (by decide), hkeptTabs, htabs]
          · rw [List.count_cons_self, hkeptSpaces, hspaces]
            rfl
      | succ spaceCount =>
          obtain ⟨kept, hkept, hstrip, hkeptTabs, hkeptSpaces⟩ := ih tabCount spaceCount
          refine ⟨kept, hkept.cons ' ', hstrip, ?_, ?_⟩
          · rw [hkeptTabs, htabs]
          · rw [hkeptSpaces, hspaces, Nat.add_sub_add_right]

theorem indentOf_kept {line kept : Text} (hkept : kept.Sublist (indentOf line)) :
    indentOf (kept ++ line.dropWhile isIndent) = kept := by
  have hindent : ∀ c ∈ kept, isIndent c = true := fun c hc =>
    isIndent_of_mem_indentOf (hkept.subset hc)
  have hrest : ∀ c ∈ (line.dropWhile isIndent).head?, isIndent c = false := by
    intro c hc
    simpa [Option.mem_def.mp hc] using List.head?_dropWhile_not isIndent line
  have hnil := indentOf_rest hrest
  rw [indentOf] at hnil ⊢
  rw [List.takeWhile_append_of_pos hindent, hnil, List.append_nil]

variable (tabCount spaceCount : Nat) (line : Text)

theorem losesIndent_stripLine : LosesIndent line (stripLine tabCount spaceCount line) := by
  obtain ⟨kept, hkept, hstrip, -, -⟩ := exists_kept tabCount spaceCount line
  exact ⟨kept, hkept, hstrip⟩

theorem tabs_stripLine : tabs (stripLine tabCount spaceCount line) = tabs line - tabCount := by
  obtain ⟨kept, hkept, hstrip, htabs, -⟩ := exists_kept tabCount spaceCount line
  rw [tabs, hstrip, indentOf_kept hkept, htabs]

theorem spaces_stripLine :
    spaces (stripLine tabCount spaceCount line) = spaces line - spaceCount := by
  obtain ⟨kept, hkept, hstrip, -, hspaces⟩ := exists_kept tabCount spaceCount line
  rw [spaces, hstrip, indentOf_kept hkept, hspaces]

theorem stripLine_subset : stripLine tabCount spaceCount line ⊆ line := by
  obtain ⟨kept, hkept, hstrip, -, -⟩ := exists_kept tabCount spaceCount line
  rw [hstrip]
  conv_rhs => rw [← indentOf_append_dropWhile line]
  exact (hkept.append_right _).subset

theorem trimStart_stripLine :
    (stripLine tabCount spaceCount line).trimStart = line.trimStart := by
  obtain ⟨kept, hkept, hstrip, -, -⟩ := exists_kept tabCount spaceCount line
  have hindents : ∀ part : Text, part ⊆ indentOf line → part.allBlank = true := by
    intro part hpart
    rw [Text.allBlank, List.all_eq_true]
    exact fun c hc => isBlank_of_isIndent (isIndent_of_mem_indentOf (hpart hc))
  conv_rhs => rw [← indentOf_append_dropWhile line]
  rw [hstrip, Text.trimStart_append_of_allBlank (hindents kept hkept.subset),
    Text.trimStart_append_of_allBlank (hindents (indentOf line) (List.Subset.refl _))]

theorem allBlank_stripLine :
    (stripLine tabCount spaceCount line).allBlank = line.allBlank := by
  rw [← Text.allBlank_trimStart, trimStart_stripLine, Text.allBlank_trimStart]

theorem lines_normalize (text : Text) :
    (normalize text).lines =
      text.lines.map (stripLine (sharedTabs text) (sharedSpaces text)) := by
  apply Text.lines_unlines
  · intro row hrow hfeed
    obtain ⟨line, hline, rfl⟩ := List.mem_map.mp hrow
    exact Text.not_mem_of_mem_lines hline (stripLine_subset _ _ line hfeed)
  · simpa using Text.lines_ne_nil text

/-- A line that is neither the first nor the last of a text, and not blank. -/
def Inner (text : Text) (index : Nat) (line : Text) : Prop :=
  0 < index ∧ index + 1 < text.lines.length ∧ text.lines[index]? = some line ∧
    line.allBlank = false

/-- The least amount among the inner lines, and nothing where there are none. -/
inductive Shared (measure : Text → Nat) (text : Text) : Nat → Prop
  | least {index : Nat} {line : Text} (hinner : Inner text index line)
      (hleast : ∀ other row, Inner text other row → measure line ≤ measure row) :
      Shared measure text (measure line)
  | none (hnone : ∀ index line, ¬ Inner text index line) : Shared measure text 0

/-- All inner lines lose exactly the amount that they share, so that they share none of it
any more. -/
structure TakesShared (measure : Text → Nat) (amount : Nat) (text result : Text) : Prop where
  shared : Shared measure text amount
  loses : ∀ index line row, Inner text index line → result.lines[index]? = some row →
    measure row + amount = measure line
  differences : ∀ index line row other otherLine otherRow, Inner text index line →
    result.lines[index]? = some row → Inner text other otherLine →
      result.lines[other]? = some otherRow →
        (measure row : Int) - measure otherRow = measure line - measure otherLine
  nothing_left : Shared measure result 0

private theorem mem_interior {lines : List Text} {line : Text} :
    line ∈ interior lines ↔
      ∃ index, 0 < index ∧ index + 1 < lines.length ∧ lines[index]? = some line := by
  have hinterior : ∀ index, index + 1 < lines.length - 1 →
      (interior lines)[index]? = lines[index + 1]? := by
    intro index hindex
    rw [interior, List.getElem?_dropLast, List.length_tail, if_pos (by omega), List.getElem?_tail]
  have hlength : (interior lines).length = lines.length - 1 - 1 := by
    rw [interior, List.length_dropLast, List.length_tail]
  constructor
  · intro hmem
    obtain ⟨index, hline⟩ := List.mem_iff_getElem?.mp hmem
    have hindex := (List.getElem?_eq_some_iff.mp hline).1
    rw [hinterior index (by omega)] at hline
    exact ⟨index + 1, by omega, by omega, hline⟩
  · rintro ⟨index, hpositive, hindex, hline⟩
    refine List.mem_iff_getElem?.mpr ⟨index - 1, ?_⟩
    rw [hinterior (index - 1) (by omega), Nat.sub_add_cancel hpositive, hline]

private theorem mem_measured {text line : Text} :
    line ∈ measured text ↔ ∃ index, Inner text index line := by
  rw [measured, List.mem_filter, mem_interior, Bool.not_eq_true']
  constructor
  · rintro ⟨⟨index, hpositive, hindex, hline⟩, hblank⟩
    exact ⟨index, hpositive, hindex, hline, hblank⟩
  · rintro ⟨index, hpositive, hindex, hline, hblank⟩
    exact ⟨⟨index, hpositive, hindex, hline⟩, hblank⟩

theorem shared_min? (measure : Text → Nat) (text : Text) :
    Shared measure text (((measured text).map measure).min?.getD 0) := by
  cases hmin : ((measured text).map measure).min? with
  | none =>
      rw [List.min?_eq_none_iff, List.map_eq_nil_iff] at hmin
      refine .none fun index line hinner => ?_
      have hmem := mem_measured.mpr ⟨index, hinner⟩
      rw [hmin] at hmem
      contradiction
  | some amount =>
      obtain ⟨hamount, hleast⟩ := List.min?_eq_some_iff.mp hmin
      obtain ⟨line, hline, rfl⟩ := List.mem_map.mp hamount
      obtain ⟨index, hinner⟩ := mem_measured.mp hline
      refine .least hinner fun other row hother => ?_
      exact hleast (measure row) (List.mem_map_of_mem (mem_measured.mpr ⟨other, hother⟩))

theorem Shared.le {measure : Text → Nat} {text : Text} {amount : Nat}
    (hshared : Shared measure text amount) {index : Nat} {line : Text}
    (hinner : Inner text index line) : amount ≤ measure line := by
  cases hshared with
  | least _ hleast => exact hleast index line hinner
  | none hnone => exact absurd hinner (hnone index line)

theorem Shared.unique {measure : Text → Nat} {text : Text} {amount other : Nat}
    (hamount : Shared measure text amount) (hother : Shared measure text other) :
    amount = other := by
  cases hamount with
  | least hinner hleast =>
      cases hother with
      | least hotherInner hotherLeast =>
          exact Nat.le_antisymm (hleast _ _ hotherInner) (hotherLeast _ _ hinner)
      | none hnone => exact absurd hinner (hnone _ _)
  | none hnone =>
      cases hother with
      | least hotherInner _ => exact absurd hotherInner (hnone _ _)
      | none _ => rfl

section Stripped

variable {text result : Text} {strip : Text → Text}
  (hlines : result.lines = text.lines.map strip)
  (hblank : ∀ line, (strip line).allBlank = line.allBlank)
include hlines hblank

private theorem inner_result_iff {index : Nat} {row : Text} :
    Inner result index row ↔ ∃ line, Inner text index line ∧ strip line = row := by
  simp only [Inner, hlines, List.length_map, List.getElem?_map, Option.map_eq_some_iff]
  constructor
  · rintro ⟨hpositive, hindex, ⟨line, hline, rfl⟩, hrow⟩
    exact ⟨line, ⟨hpositive, hindex, hline, (hblank line).symm.trans hrow⟩, rfl⟩
  · rintro ⟨line, ⟨hpositive, hindex, hline, hrow⟩, rfl⟩
    exact ⟨hpositive, hindex, ⟨line, hline, rfl⟩, (hblank line).trans hrow⟩

private theorem shared_zero {measure : Text → Nat} {amount : Nat}
    (hmeasure : ∀ line, measure (strip line) = measure line - amount)
    (hshared : Shared measure text amount) : Shared measure result 0 := by
  cases hshared with
  | @least index line hinner hleast =>
      have hinnerRow : Inner result index (strip line) :=
        (inner_result_iff hlines hblank).mpr ⟨line, hinner, rfl⟩
      have hzero : measure (strip line) = 0 := by rw [hmeasure, Nat.sub_self]
      rw [← hzero]
      refine .least hinnerRow fun other row _ => ?_
      rw [hzero]
      exact Nat.zero_le _
  | none hnone =>
      refine .none fun index row hinner => ?_
      obtain ⟨line, hline, -⟩ := (inner_result_iff hlines hblank).mp hinner
      exact hnone index line hline

private theorem takesShared {measure : Text → Nat} {amount : Nat}
    (hmeasure : ∀ line, measure (strip line) = measure line - amount)
    (hshared : Shared measure text amount) : TakesShared measure amount text result := by
  have hloses : ∀ index line row, Inner text index line → result.lines[index]? = some row →
      measure row + amount = measure line := by
    intro index line row hinner hrow
    have hline : text.lines[index]? = some line := hinner.2.2.1
    rw [hlines, List.getElem?_map, hline] at hrow
    obtain rfl : strip line = row := Option.some.inj hrow
    rw [hmeasure, Nat.sub_add_cancel (hshared.le hinner)]
  refine ⟨hshared, hloses, ?_, shared_zero hlines hblank hmeasure hshared⟩
  intro index line row other otherLine otherRow hinner hrow hother hotherRow
  have hfirst := hloses index line row hinner hrow
  have hsecond := hloses other otherLine otherRow hother hotherRow
  omega

end Stripped

private theorem normalize_eq_self {text : Text} (htabs : sharedTabs text = 0)
    (hspaces : sharedSpaces text = 0) : normalize text = text := by
  have hstrip : stripLine 0 0 = id := funext stripLine_zero
  rw [normalize, htabs, hspaces, hstrip, List.map_id, Text.unlines_lines]

/-- Every line keeps its place and loses nothing but indentation, the inner ones exactly the
tabs and the spaces that they share, and a second time nothing is lost. -/
theorem normalize_takes_shared_indentation (text : Text) :
    List.Forall₂ LosesIndent text.lines (normalize text).lines ∧
      (∃ tabCount, TakesShared tabs tabCount text (normalize text)) ∧
      (∃ spaceCount, TakesShared spaces spaceCount text (normalize text)) ∧
      normalize (normalize text) = normalize text := by
  have hblank := allBlank_stripLine (sharedTabs text) (sharedSpaces text)
  have htabs : TakesShared tabs (sharedTabs text) text (normalize text) :=
    takesShared (lines_normalize text) hblank (tabs_stripLine _ _) (shared_min? tabs text)
  have hspaces : TakesShared spaces (sharedSpaces text) text (normalize text) :=
    takesShared (lines_normalize text) hblank (spaces_stripLine _ _) (shared_min? spaces text)
  refine ⟨?_, ⟨_, htabs⟩, ⟨_, hspaces⟩, ?_⟩
  · rw [lines_normalize, List.forall₂_map_right_iff, List.forall₂_same]
    exact fun line _ => losesIndent_stripLine _ _ line
  · apply normalize_eq_self
    · exact (shared_min? tabs (normalize text)).unique htabs.nothing_left
    · exact (shared_min? spaces (normalize text)).unique hspaces.nothing_left

end Docblock.Indentation
