import Docblock.Proofs.Text.Replacement
import Docblock.Proofs.Text.Trimming

namespace Docblock.Text

theorem lines_ne_nil (text : Text) : lines text ≠ [] :=
  List.splitOn_ne_nil '\n' text

theorem lines_of_not_mem {text : Text} (hline : '\n' ∉ text) : lines text = [text] :=
  List.splitOn_eq_singleton hline

theorem lines_append_cons (left right : Text) :
    lines (left ++ '\n' :: right) = lines left ++ lines right :=
  List.splitOn_append_cons_self left right

theorem lines_cons (text : Text) : lines ('\n' :: text) = [] :: lines text :=
  lines_append_cons [] text

theorem lines_unlines {rows : List Text} (hrows : ∀ row ∈ rows, '\n' ∉ row)
    (hne : rows ≠ []) : lines (unlines rows) = rows :=
  List.splitOn_intercalate '\n' hrows hne

theorem lines_induction {motive : Text → Prop}
    (last : ∀ line, '\n' ∉ line → motive line)
    (cons : ∀ line rest, '\n' ∉ line → motive rest → motive (line ++ '\n' :: rest))
    (text : Text) : motive text := by
  induction hlength : text.length using Nat.strongRecOn generalizing text with
  | ind length ih =>
      by_cases hmem : '\n' ∈ text
      · obtain ⟨line, rest, rfl, hline⟩ := List.eq_append_cons_of_mem hmem
        rw [List.length_append, List.length_cons] at hlength
        exact cons line rest hline (ih rest.length (by omega) rest rfl)
      · exact last text hmem

theorem not_mem_of_mem_lines {text line : Text} (hline : line ∈ lines text) : '\n' ∉ line := by
  induction text using lines_induction with
  | last only honly =>
      rw [lines_of_not_mem honly, List.mem_singleton] at hline
      exact hline ▸ honly
  | cons first rest hfirst ih =>
      rw [lines_append_cons, lines_of_not_mem hfirst, List.cons_append, List.mem_cons] at hline
      rcases hline with rfl | hline
      · exact hfirst
      · exact ih hline

theorem infix_of_mem_lines {text line : Text} (hline : line ∈ lines text) : line <:+: text := by
  induction text using lines_induction with
  | last only honly =>
      rw [lines_of_not_mem honly, List.mem_singleton] at hline
      exact hline ▸ List.infix_rfl
  | cons first rest hfirst ih =>
      rw [lines_append_cons, lines_of_not_mem hfirst, List.singleton_append,
        List.mem_cons] at hline
      rcases hline with rfl | hline
      · exact (List.prefix_append line _).isInfix
      · have hrest : rest <:+ first ++ '\n' :: rest :=
          (List.suffix_cons '\n' rest).trans (List.suffix_append first _)
        exact (ih hline).trans hrest.isInfix

theorem infix_append_cons_iff {word left right : Text} {c : Char} (hc : c ∉ word) :
    word <:+: left ++ c :: right ↔ word <:+: left ∨ word <:+: right := by
  constructor
  · rintro ⟨before, after, hsplit⟩
    rcases List.append_eq_append_iff.mp hsplit with ⟨middle, hleft, -⟩ | ⟨middle, hleft, hright⟩
    · exact .inl ⟨before, middle, hleft.symm⟩
    · cases middle with
      | nil => exact .inl ⟨before, [], by simpa using hleft⟩
      | cons d middle =>
          obtain ⟨rfl, rfl⟩ := List.cons.inj hright
          rcases List.append_eq_append_iff.mp hleft with ⟨inner, -, hword⟩ | ⟨inner, -, hinner⟩
          · exact absurd (by simp [hword]) hc
          · cases inner with
            | nil =>
                rw [List.nil_append] at hinner
                exact absurd (hinner ▸ List.mem_cons_self) hc
            | cons e inner => exact .inr ⟨inner, after, by simp [(List.cons.inj hinner).2]⟩
  · rintro (hleft | hright)
    · exact hleft.trans (List.prefix_append left _).isInfix
    · exact hright.trans ((List.suffix_cons c right).trans (List.suffix_append left _)).isInfix

/-- The lines of rows that are written one below the other. -/
def linesOfRows (rows : List Text) : List Text :=
  rows.flatMap lines

theorem lines_unlines_of_ne_nil {rows : List Text} (hne : rows ≠ []) :
    lines (unlines rows) = linesOfRows rows := by
  induction rows with
  | nil => contradiction
  | cons row rest ih =>
      cases rest with
      | nil => simp [unlines, linesOfRows]
      | cons next rest =>
          rw [linesOfRows, List.flatMap_cons, unlines, List.intercalate_cons_cons,
            List.append_assoc, List.singleton_append, lines_append_cons]
          exact congrArg (lines row ++ ·) (ih (List.cons_ne_nil next rest))

theorem exists_line_of_head? {text : Text} {c : Char} (hhead : text.head? = some c)
    (hc : c ≠ '\n') : ∃ line ∈ lines text, line.head? = some c := by
  induction text using lines_induction with
  | last only honly => exact ⟨only, by simp [lines_of_not_mem honly], hhead⟩
  | cons line rest hline _ =>
      cases line with
      | nil =>
          obtain rfl : '\n' = c := by simpa using hhead
          contradiction
      | cons first line =>
          refine ⟨first :: line, ?_, hhead⟩
          rw [lines_append_cons, lines_of_not_mem hline]
          exact List.mem_cons_self

theorem lines_replace {pattern replacement : Text} (hpattern : pattern ≠ [])
    (hline : '\n' ∉ pattern) (hreplacement : '\n' ∉ replacement) (text : Text) :
    lines (replace text pattern replacement) =
      (lines text).map fun line => replace line pattern replacement := by
  induction text using lines_induction with
  | last only honly =>
      rw [lines_of_not_mem honly, lines_of_not_mem (not_mem_replace hpattern hreplacement honly)]
      rfl
  | cons first rest hfirst ih =>
      rw [replace_append_cons hpattern hline, lines_append_cons, lines_append_cons, ih,
        lines_of_not_mem hfirst, lines_of_not_mem (not_mem_replace hpattern hreplacement hfirst)]
      rfl

structure Unified (text : Text) : Prop where
  not_pair : ¬ ['\r', '\n'] <:+: text
  getLast?_ne : text.getLast? ≠ some '\r'

theorem unified_of_not_mem {text : Text} (hmem : '\r' ∉ text) : Unified text where
  not_pair hwithin := hmem (hwithin.subset List.mem_cons_self)
  getLast?_ne hlast := hmem (List.mem_of_getLast? hlast)

theorem Unified.of_cons {c : Char} {text : Text} (hunified : Unified (c :: text)) :
    Unified text where
  not_pair hwithin := hunified.not_pair (hwithin.trans (List.suffix_cons c text).isInfix)
  getLast?_ne hlast :=
    hunified.getLast?_ne (getLast?_of_suffix (List.suffix_cons c text) hlast)

theorem Unified.append {left right : Text} (hleft : Unified left) (hright : Unified right) :
    Unified (left ++ right) := by
  constructor
  · induction left with
    | nil => exact hright.not_pair
    | cons c left ih =>
        intro hwithin
        rw [List.cons_append, List.infix_cons_iff] at hwithin
        rcases hwithin with hbegins | hwithin
        · cases left with
          | nil =>
              rw [List.nil_append, List.cons_prefix_cons] at hbegins
              obtain ⟨rfl, -⟩ := hbegins
              exact hleft.getLast?_ne rfl
          | cons d left =>
              apply hleft.not_pair
              rw [List.cons_append, List.cons_prefix_cons, List.cons_prefix_cons] at hbegins
              obtain ⟨rfl, rfl, -⟩ := hbegins
              exact List.IsPrefix.isInfix (by simp)
        · exact ih hleft.of_cons hwithin
  · rw [List.getLast?_append]
    cases hlast : right.getLast? with
    | none => exact hleft.getLast?_ne
    | some c =>
        rw [Option.some_or, ← hlast]
        exact hright.getLast?_ne

theorem unified_flatMap {α : Type} {items : List α} {write : α → Text}
    (hitems : ∀ item ∈ items, Unified (write item)) : Unified (items.flatMap write) := by
  induction items with
  | nil => exact unified_of_not_mem List.not_mem_nil
  | cons item rest ih =>
      rw [List.forall_mem_cons] at hitems
      exact hitems.1.append (ih hitems.2)

theorem unified_of_lines {text : Text}
    (hlines : ∀ line ∈ lines text, line.getLast? ≠ some '\r') : Unified text := by
  have hline : ∀ line : Text, '\n' ∉ line → line.getLast? ≠ some '\r' → Unified line := by
    intro line hfeed hlast
    exact ⟨fun hwithin => hfeed (hwithin.subset (by simp)), hlast⟩
  induction text using lines_induction with
  | last only honly =>
      apply hline only honly
      exact hlines only (by rw [lines_of_not_mem honly]; exact List.mem_cons_self)
  | cons line rest hfeed ih =>
      rw [lines_append_cons, lines_of_not_mem hfeed, List.singleton_append,
        List.forall_mem_cons] at hlines
      have hbreak : Unified ['\n'] := unified_of_not_mem (by decide)
      exact (hline line hfeed hlines.1).append (hbreak.append (ih hlines.2))

end Docblock.Text
