import Docblock.Proofs.Snippet.Normalization
import Docblock.Proofs.Snippet.SharedIndentation

namespace Docblock.Snippet

theorem stripOnce_suffix (symbols : List Text) (text : Text) : stripOnce symbols text <:+ text := by
  rw [stripOnce]
  induction symbols generalizing text with
  | nil => exact List.suffix_rfl
  | cons symbol symbols ih =>
      rw [List.foldl_cons]
      refine (ih _).trans ?_
      split
      · next rest hrest =>
          obtain rfl := List.isPrefixOf?_eq_some_iff_append_eq.mp hrest
          exact (List.dropWhile_suffix isBlank).trans (List.suffix_append symbol rest)
      · exact List.suffix_rfl

section Repeat

variable {step : Text → Text} (hstep : ∀ text, step text <:+ text)
include hstep

theorem repeat_or_shorter (text : Text) (count : Nat) :
    step (count.repeat step text) = count.repeat step text ∨
      (count.repeat step text).length + count ≤ text.length := by
  induction count with
  | zero => exact .inr (Nat.le_refl _)
  | succ count ih =>
      rw [Nat.repeat]
      by_cases hfixed : step (count.repeat step text) = count.repeat step text
      · exact .inl (congrArg step hfixed)
      · have hshorter := ih.resolve_left hfixed
        have hsuffix := hstep (count.repeat step text)
        have hle := hsuffix.length_le
        have hne : (step (count.repeat step text)).length ≠ (count.repeat step text).length :=
          fun hlength => hfixed (hsuffix.eq_of_length hlength)
        exact .inr (by omega)

private theorem repeat_eq_of_length_le {text : Text} {count : Nat} (hcount : text.length ≤ count) :
    count.repeat step text = text.length.repeat step text := by
  have hend : step (text.length.repeat step text) = text.length.repeat step text := by
    rcases repeat_or_shorter hstep text text.length with hfixed | hshorter
    · exact hfixed
    · have hnil : text.length.repeat step text = [] :=
        List.eq_nil_of_length_eq_zero (by omega)
      rw [hnil]
      exact List.suffix_nil.mp (hstep [])
  induction count, hcount using Nat.le_induction with
  | base => rfl
  | succ count _ ih => rw [Nat.repeat, ih, hend]

end Repeat

theorem isRemnant_of_trim (language : Language) {left right : Text}
    (htrim : left.trim = right.trim) : isRemnant language left = isRemnant language right := by
  have hstep := stripOnce_suffix language.remnantSymbols
  rw [isRemnant, isRemnant, repeat_eq_of_length_le hstep (Text.length_trim_le left),
    repeat_eq_of_length_le hstep (Text.length_trim_le right), htrim]

/-- A row has the characters of a line, but for the blanks at its ends, and no blank at its
own end. -/
structure Shows (line row : Text) : Prop where
  trim_eq : row.trim = line.trim
  trimEnd_eq : row.trimEnd = row
  one_line : '\n' ∉ row

theorem exists_shows {range rows : List Text} (hrange : List.Forall₂ Shows range rows) {row : Text}
    (hmem : row ∈ rows) : ∃ line, Shows line row := by
  induction hrange with
  | nil => contradiction
  | cons hrow _ ih =>
      rcases List.mem_cons.mp hmem with rfl | hmem
      · exact ⟨_, hrow⟩
      · exact ih hmem

/-- Blank lines, the first of which may consist of comment symbols instead. -/
def IsMargin (language : Language) : List Text → Prop
  | [] => True
  | first :: rest =>
      (first.allBlank = true ∨ isRemnant language first = true) ∧
        ∀ line ∈ rest, line.allBlank = true

/-- Rows show the lines between a margin and another one that is read from below. -/
def ShowsInside (language : Language) (lines rows : List Text) : Prop :=
  ∃ above range below, lines = above ++ (range ++ below) ∧ IsMargin language above ∧
    IsMargin language below.reverse ∧ List.Forall₂ Shows range rows

private theorem IsMargin.append_blank {language : Language} {margin : List Text}
    (hmargin : IsMargin language margin) {line : Text} (hblank : line.allBlank = true) :
    IsMargin language (margin ++ [line]) := by
  cases margin with
  | nil => exact ⟨.inl hblank, fun _ hmem => absurd hmem List.not_mem_nil⟩
  | cons first rest =>
      refine ⟨hmargin.1, fun other hmem => ?_⟩
      rcases List.mem_append.mp hmem with hrest | hlast
      · exact hmargin.2 other hrest
      · rwa [List.mem_singleton.mp hlast]

theorem isMargin_singleton {language : Language} {line : Text}
    (hremnant : isRemnant language line = true) : IsMargin language [line] :=
  ⟨.inr hremnant, fun _ hmem => absurd hmem List.not_mem_nil⟩

variable {language : Language}

theorem ShowsInside.reverse {lines rows : List Text} (hshows : ShowsInside language lines rows) :
    ShowsInside language lines.reverse rows.reverse := by
  obtain ⟨above, range, below, rfl, habove, hbelow, hrange⟩ := hshows
  refine ⟨below.reverse, range.reverse, above.reverse, ?_, hbelow, ?_, ?_⟩
  · simp
  · rwa [List.reverse_reverse]
  · exact List.forall₂_reverse_iff.mpr hrange

private theorem ShowsInside.dropBlank {lines rows : List Text}
    (hshows : ShowsInside language lines rows) :
    ShowsInside language lines (rows.dropWhile Text.allBlank) := by
  induction rows with
  | nil => exact hshows
  | cons row rows ih =>
      rw [List.dropWhile_cons]
      split
      · next hblank =>
          apply ih
          obtain ⟨above, range, below, rfl, habove, hbelow, hrange⟩ := hshows
          cases hrange with
          | @cons line _ range _ hrow hrows =>
              have hline : line.allBlank = true :=
                (Text.allBlank_of_trim hrow.trim_eq).symm.trans hblank
              refine ⟨above ++ [line], range, below, ?_, habove.append_blank hline, hbelow, hrows⟩
              simp
      · exact hshows

theorem ShowsInside.trimLines {lines rows : List Text} (hshows : ShowsInside language lines rows) :
    ShowsInside language lines (trimLines rows) := by
  have hback := hshows.dropBlank.reverse.dropBlank.reverse
  rwa [List.reverse_reverse] at hback

private theorem showsInside_settleLast {above range rows : List Text}
    (habove : IsMargin language above)
    (hrange : List.Forall₂ Shows range rows) :
    ShowsInside language (above ++ range) (settleLast language rows) := by
  rcases List.eq_nil_or_concat' rows with rfl | ⟨rows, row, rfl⟩
  · cases hrange
    exact ⟨above, [], [], rfl, habove, trivial, .nil⟩
  · rw [settleLast, List.getLast?_concat, Option.any_some]
    split
    · next hremnant =>
        have hreversed := List.forall₂_reverse_iff.mpr hrange
        rw [List.reverse_concat, List.forall₂_cons_right_iff] at hreversed
        obtain ⟨line, init, hrow, hrows, hreverse⟩ := hreversed
        obtain rfl : range = init.reverse ++ [line] := by
          rw [← List.reverse_reverse range, hreverse, List.reverse_cons]
        rw [List.dropLast_concat]
        refine ⟨above, init.reverse, [line], rfl, habove, isMargin_singleton ?_, ?_⟩
        · rwa [← isRemnant_of_trim language hrow.trim_eq]
        · rwa [← List.forall₂_reverse_iff, List.reverse_reverse]
    · exact ⟨above, range, [], by rw [List.append_nil], habove, trivial, hrange⟩

theorem Shows.trimStart {line row : Text} (hshows : Shows line row) :
    Shows line row.trimStart where
  trim_eq := (Text.trim_trimStart row).trans hshows.trim_eq
  trimEnd_eq := by
    apply Text.trimEnd_eq_self
    intro c hc
    apply Text.isBlank_getLast?_of_trimEnd hshows.trimEnd_eq
    exact Text.getLast?_of_suffix (List.dropWhile_suffix isBlank) hc
  one_line hfeed := hshows.one_line ((List.dropWhile_suffix isBlank).subset hfeed)

private theorem showsInside_settled {lines rows : List Text}
    (hshows : List.Forall₂ Shows lines rows) :
    ShowsInside language lines (settleLast language (settleFirst language rows)) := by
  have hnone : IsMargin language [] := trivial
  cases hshows with
  | nil => exact showsInside_settleLast hnone .nil
  | @cons line row lines rows hrow hrows =>
      rw [settleFirst]
      split
      · next hremnant =>
          have hline : isRemnant language line = true := by
            rwa [← isRemnant_of_trim language hrow.trim_eq]
          exact showsInside_settleLast (isMargin_singleton hline) hrows
      · exact showsInside_settleLast hnone (.cons hrow.trimStart hrows)

private theorem shows_rows (text : Text) :
    List.Forall₂ Shows text.lines ((Indentation.normalize text).lines.map Text.trimEnd) := by
  rw [Indentation.lines_normalize, List.map_map, List.forall₂_map_right_iff, List.forall₂_same]
  intro line hline
  constructor
  · rw [Function.comp_apply, Text.trim_trimEnd, Text.trim, Indentation.trimStart_stripLine,
      Text.trim]
  · exact Text.trimEnd_eq_self (Text.isBlank_getLast?_trimEnd _)
  · intro hfeed
    have hstripped := (Text.trimEnd_isPrefix _).subset hfeed
    exact Text.not_mem_of_mem_lines hline (Indentation.stripLine_subset _ _ line hstripped)

def shownRows (language : Language) (markers : Markers) (text : Text) : List Text :=
  trimLines (settleLast language (settleFirst language
    ((Indentation.normalize (unescape markers text)).lines.map Text.trimEnd)))

theorem normalize_eq_unlines (language : Language) (markers : Markers) (text : Text) :
    normalize language markers text = Text.unlines (shownRows language markers text) := rfl

theorem showsInside_shownRows (language : Language) (markers : Markers) (text : Text) :
    ShowsInside language (unescape markers text).lines (shownRows language markers text) :=
  (showsInside_settled (shows_rows (unescape markers text))).trimLines

theorem head?_trimLines (rows : List Text) :
    ∀ row ∈ (trimLines rows).head?, row.allBlank = false :=
  Text.head?_reverse_dropWhile_dropWhile rows

theorem getLast?_trimLines (rows : List Text) :
    ∀ row ∈ (trimLines rows).getLast?, row.allBlank = false :=
  Text.getLast?_reverse_dropWhile (rows.dropWhile Text.allBlank)

theorem lines_normalize {markers : Markers} {text : Text}
    (hne : shownRows language markers text ≠ []) :
    (normalize language markers text).lines = shownRows language markers text := by
  rw [normalize_eq_unlines]
  refine Text.lines_unlines ?_ hne
  obtain ⟨_, range, _, -, -, -, hrange⟩ := showsInside_shownRows language markers text
  intro row hrow
  obtain ⟨line, hshows⟩ := exists_shows hrange hrow
  exact hshows.one_line

private theorem normalize_eq_nil_iff {markers : Markers} {text : Text} :
    normalize language markers text = [] ↔ shownRows language markers text = [] := by
  constructor
  · intro hnil
    by_contra hne
    have hlines := lines_normalize hne
    rw [hnil] at hlines
    have hhead := head?_trimLines _ [] (by rw [← shownRows, ← hlines]; rfl)
    exact Bool.noConfusion hhead
  · intro hnil
    rw [normalize_eq_unlines, hnil]
    rfl

/-- A line that may be missing from code: it is blank, or it is the first or the last one and
consists of comment symbols. -/
def Spare (language : Language) (lines : List Text) (index : Nat) : Prop :=
  ∀ line, lines[index]? = some line →
    line.allBlank = true ∨
      (index = 0 ∨ index + 1 = lines.length) ∧ isRemnant language line = true

private theorem IsMargin.getElem? {margin : List Text} (hmargin : IsMargin language margin)
    {index : Nat}
    {line : Text} (hline : margin[index]? = some line) :
    line.allBlank = true ∨ index = 0 ∧ isRemnant language line = true := by
  cases margin with
  | nil => contradiction
  | cons first rest =>
      cases index with
      | zero =>
          obtain rfl : first = line := Option.some.inj hline
          exact hmargin.1.imp_right fun hremnant => ⟨rfl, hremnant⟩
      | succ index => exact .inl (hmargin.2 line (List.mem_of_getElem? hline))

private theorem spare_of_outside {above range below : List Text} (habove : IsMargin language above)
    (hbelow : IsMargin language below.reverse) {index : Nat}
    (hindex : index < above.length ∨ above.length + range.length ≤ index) :
    Spare language (above ++ (range ++ below)) index := by
  intro line hline
  rcases hindex with hindex | hindex
  · rw [List.getElem?_append_left hindex] at hline
    exact (habove.getElem? hline).imp_right fun hfirst => ⟨.inl hfirst.1, hfirst.2⟩
  · rw [List.getElem?_append_right (by omega), List.getElem?_append_right (by omega)] at hline
    have hlength := (List.getElem?_eq_some_iff.mp hline).1
    have hreversed : below.reverse[below.length - 1 - (index - above.length - range.length)]? =
        some line := by
      rw [List.getElem?_reverse (by omega)]
      rw [← hline]
      congr 1
      omega
    refine (hbelow.getElem? hreversed).imp_right fun hlast => ⟨.inr ?_, hlast.2⟩
    simp only [List.length_append]
    omega

/-- Code shows a range of the lines it is taken from, and all lines outside may be missing. -/
theorem normalize_shows_range (language : Language) (markers : Markers) (text : Text) :
    (normalize language markers text = [] →
      ∀ index, Spare language (unescape markers text).lines index) ∧
    (normalize language markers text ≠ [] →
      ∃ above range below, (unescape markers text).lines = above ++ (range ++ below) ∧
        List.Forall₂ Shows range (normalize language markers text).lines ∧
        (∀ row ∈ (normalize language markers text).lines.head?, row.allBlank = false) ∧
        (∀ row ∈ (normalize language markers text).lines.getLast?, row.allBlank = false) ∧
        ∀ index, index < above.length ∨ above.length + range.length ≤ index →
          Spare language (unescape markers text).lines index) := by
  obtain ⟨above, range, below, hlines, habove, hbelow, hrange⟩ :=
    showsInside_shownRows language markers text
  constructor
  · intro hnil index
    rw [normalize_eq_nil_iff.mp hnil, List.forall₂_nil_right_iff] at hrange
    rw [hlines, hrange]
    apply spare_of_outside habove hbelow
    rw [List.length_nil]
    omega
  · intro hne
    have hrows : shownRows language markers text ≠ [] := fun hnil =>
      hne (normalize_eq_nil_iff.mpr hnil)
    rw [lines_normalize hrows]
    refine ⟨above, range, below, hlines, hrange, head?_trimLines _, getLast?_trimLines _, ?_⟩
    intro index hindex
    rw [hlines]
    exact spare_of_outside habove hbelow hindex

end Docblock.Snippet
