import Docblock.Proofs.Text.Lines
import Docblock.Snippet.Basic

namespace Docblock.Snippet

def escapeEnd (code : Text) : Text :=
  code.replace Markers.standard.codeEnd ('\\' :: Markers.standard.codeEnd)

theorem codeEnd_ne_nil : Markers.standard.codeEnd ≠ [] := by
  decide

theorem escape_not_mem_codeEnd : '\\' ∉ Markers.standard.codeEnd := by
  decide

theorem lines_escapeEnd (code : Text) : (escapeEnd code).lines = code.lines.map escapeEnd :=
  Text.lines_replace codeEnd_ne_nil (by decide) (by decide) code

theorem allBlank_escapeEnd (line : Text) : (escapeEnd line).allBlank = line.allBlank := by
  have hmark : Markers.standard.codeEnd.all isBlank = false := by decide
  rw [escapeEnd]
  induction line using Text.replace_induction codeEnd_ne_nil with
  | nil => rfl
  | matched rest ih =>
      rw [Text.replace_append_of_ne_nil codeEnd_ne_nil, Text.allBlank, Text.allBlank,
        List.all_append, List.all_append, List.all_cons, hmark, Bool.and_false, Bool.false_and,
        Bool.false_and]
  | unmatched c rest hunmatched ih =>
      rw [Text.replace_cons_of_unmatched hunmatched]
      exact congrArg (isBlank c && ·) ih

theorem unescape_eq (text : Text) :
    unescape Markers.standard text =
      (((text.replace ('\\' :: Markers.standard.codeStart) Markers.standard.codeStart).replace
        ('\\' :: Markers.standard.codeEnd) Markers.standard.codeEnd).replace
          ('\\' :: Markers.standard.openBlock) Markers.standard.openBlock).replace
            ('\\' :: Markers.standard.closeBlock) Markers.standard.closeBlock := rfl

theorem lines_unescape (text : Text) :
    (unescape Markers.standard text).lines =
      text.lines.map (unescape Markers.standard) := by
  rw [unescape_eq, Text.lines_replace (by decide) (by decide) (by decide),
    Text.lines_replace (by decide) (by decide) (by decide),
    Text.lines_replace (by decide) (by decide) (by decide),
    Text.lines_replace (by decide) (by decide) (by decide), List.map_map, List.map_map,
    List.map_map]
  rfl

theorem unescape_append {lead : Text} (hlead : '\\' ∉ lead) (text : Text) :
    unescape Markers.standard (lead ++ text) =
      lead ++ unescape Markers.standard text := by
  rw [unescape_eq, Text.replace_append_of_head_not_mem rfl hlead,
    Text.replace_append_of_head_not_mem rfl hlead, Text.replace_append_of_head_not_mem rfl hlead,
    Text.replace_append_of_head_not_mem rfl hlead, ← unescape_eq]

theorem unescape_escapeEnd {line : Text} (hopen : ¬ '\\' :: Markers.standard.openBlock <:+: line)
    (hclose : ¬ '\\' :: Markers.standard.closeBlock <:+: line) :
    unescape Markers.standard (escapeEnd line) = line := by
  have hstart : ¬ '\\' :: Markers.standard.codeStart <:+: escapeEnd line := by
    intro hwithin
    have hline := Text.cons_infix_of_cons_infix_escaped codeEnd_ne_nil escape_not_mem_codeEnd
      (by decide) (by decide) (by decide) hwithin
    have hbegins : '\\' :: Markers.standard.openBlock <+: '\\' :: Markers.standard.codeStart := by
      decide
    exact hopen (hbegins.isInfix.trans hline)
  have hend : (escapeEnd line).replace ('\\' :: Markers.standard.codeEnd) Markers.standard.codeEnd =
      line :=
    Text.replace_replace_escaped codeEnd_ne_nil escape_not_mem_codeEnd line
  rw [unescape_eq, Text.replace_eq_self hstart, hend, Text.replace_eq_self hopen,
    Text.replace_eq_self hclose]

private theorem trimLines_eq_self {lines : List Text}
    (hfirst : ∀ line ∈ lines.head?, line.allBlank = false)
    (hlast : ∀ line ∈ lines.getLast?, line.allBlank = false) :
    trimLines lines = lines := by
  have hkeep : ∀ lines : List Text, (∀ line ∈ lines.head?, line.allBlank = false) →
      lines.dropWhile Text.allBlank = lines := by
    intro lines hhead
    cases lines with
    | nil => rfl
    | cons line rest => simp [hhead line rfl]
  have hreverse : ∀ line ∈ lines.reverse.head?, line.allBlank = false := by
    rwa [List.head?_reverse]
  rw [trimLines, hkeep lines hfirst, hkeep lines.reverse hreverse, List.reverse_reverse]

private theorem isRemnant_nil (language : Language) : isRemnant language [] = true := rfl

theorem normalize_of_lines (language : Language) {markers : Markers} {text : Text}
    {rows : List Text}
    (hlines : (Indentation.normalize (unescape markers text)).lines = [] :: (rows ++ [[]]))
    (htrimmed : ∀ row ∈ rows, row.trimEnd = row)
    (hfirst : ∀ row ∈ rows.head?, row.allBlank = false)
    (hlast : ∀ row ∈ rows.getLast?, row.allBlank = false) :
    normalize language markers text = Text.unlines rows := by
  have htrimEnd : ([] :: (rows ++ [[]])).map Text.trimEnd = [] :: (rows ++ [[]]) := by
    have hrows : rows.map Text.trimEnd = rows.map id := List.map_congr_left htrimmed
    rw [List.map_cons, List.map_append, hrows, List.map_id]
    rfl
  have habove : settleFirst language ([] :: (rows ++ [[]])) = rows ++ [[]] := by
    rw [settleFirst, isRemnant_nil, if_pos rfl]
  have hbelow : settleLast language (rows ++ [[]]) = rows := by
    rw [settleLast, List.getLast?_concat, Option.any_some, isRemnant_nil, if_pos rfl,
      List.dropLast_concat]
  simp only [normalize, hlines, htrimEnd, habove, hbelow]
  rw [trimLines_eq_self hfirst hlast]

end Docblock.Snippet
