import Docblock.Text.Blank

namespace Docblock.Text

section Ends

variable {α : Type} {drops : α → Bool} (items : List α)

theorem head?_dropWhile : ∀ item ∈ (items.dropWhile drops).head?, drops item = false := by
  intro item hitem
  simpa [Option.mem_def.mp hitem] using List.head?_dropWhile_not drops items

theorem reverse_dropWhile_isPrefix : (items.reverse.dropWhile drops).reverse <+: items := by
  rw [← List.reverse_suffix, List.reverse_reverse]
  exact List.dropWhile_suffix drops

theorem getLast?_reverse_dropWhile :
    ∀ item ∈ (items.reverse.dropWhile drops).reverse.getLast?, drops item = false := by
  rw [List.getLast?_reverse]
  exact head?_dropWhile items.reverse

theorem head?_reverse_dropWhile_dropWhile :
    ∀ item ∈ ((items.dropWhile drops).reverse.dropWhile drops).reverse.head?,
      drops item = false := by
  intro item hitem
  obtain ⟨rest, hrest⟩ := @reverse_dropWhile_isPrefix _ drops (items.dropWhile drops)
  apply head?_dropWhile items
  rw [← hrest, List.head?_append, Option.mem_def.mp hitem]
  rfl

end Ends

theorem isBlank_head?_trimStart (text : Text) :
    ∀ c ∈ text.trimStart.head?, isBlank c = false :=
  head?_dropWhile text

theorem isBlank_getLast?_trimEnd (text : Text) :
    ∀ c ∈ text.trimEnd.getLast?, isBlank c = false :=
  getLast?_reverse_dropWhile text

theorem isBlank_head?_trim (text : Text) : ∀ c ∈ text.trim.head?, isBlank c = false :=
  head?_reverse_dropWhile_dropWhile text

theorem trimEnd_isPrefix (text : Text) : text.trimEnd <+: text :=
  reverse_dropWhile_isPrefix text

theorem trimStart_eq_self {text : Text} (hhead : ∀ c ∈ text.head?, isBlank c = false) :
    trimStart text = text := by
  cases text with
  | nil => rfl
  | cons c rest => exact List.dropWhile_cons_of_neg (by simp [hhead c rfl])

theorem trimEnd_eq_self {text : Text} (hlast : ∀ c ∈ text.getLast?, isBlank c = false) :
    trimEnd text = text := by
  have hreversed : trimStart text.reverse = text.reverse := by
    refine trimStart_eq_self fun c hc => hlast c ?_
    rwa [List.head?_reverse] at hc
  calc
    trimEnd text = (trimStart text.reverse).reverse := rfl
    _ = text := by rw [hreversed, List.reverse_reverse]

theorem trim_eq_self {text : Text} (hhead : ∀ c ∈ text.head?, isBlank c = false)
    (hlast : ∀ c ∈ text.getLast?, isBlank c = false) : text.trim = text := by
  rw [trim, trimStart_eq_self hhead, trimEnd_eq_self hlast]

theorem isBlank_getLast?_of_trimEnd {text : Text} (htrim : trimEnd text = text) :
    ∀ c ∈ text.getLast?, isBlank c = false := by
  have hlast := isBlank_getLast?_trimEnd text
  rwa [htrim] at hlast

theorem isBlank_head?_of_trim {text : Text} (htrim : trim text = text) :
    ∀ c ∈ text.head?, isBlank c = false := by
  have hhead := isBlank_head?_trim text
  rwa [htrim] at hhead

theorem isBlank_getLast?_of_trim {text : Text} (htrim : trim text = text) :
    ∀ c ∈ text.getLast?, isBlank c = false := by
  have hlast := isBlank_getLast?_trimEnd text.trimStart
  rwa [← trim, htrim] at hlast

theorem trimStart_append_of_allBlank {left : Text} (hleft : left.allBlank = true)
    (right : Text) : trimStart (left ++ right) = trimStart right :=
  List.dropWhile_append_of_pos (List.all_eq_true.mp hleft)

theorem trimStart_append_of_not_allBlank {left : Text} (hleft : left.allBlank = false)
    (right : Text) : trimStart (left ++ right) = trimStart left ++ right := by
  have hne : left.trimStart ≠ [] := by
    rw [Ne, trimStart_eq_nil_iff, hleft]
    exact Bool.false_ne_true
  rw [trimStart, List.dropWhile_append, ← trimStart, if_neg (by simpa using hne)]

theorem trimEnd_append_of_allBlank {right : Text} (hright : right.allBlank = true)
    (left : Text) : trimEnd (left ++ right) = trimEnd left := by
  have hblank : ∀ c ∈ right.reverse, isBlank c = true := by
    intro c hc
    exact List.all_eq_true.mp hright c (List.mem_reverse.mp hc)
  rw [trimEnd, List.reverse_append, List.dropWhile_append_of_pos hblank, trimEnd]

theorem trimEnd_append_of_getLast? {left : Text} (hlast : ∀ c ∈ left.getLast?, isBlank c = false)
    (right : Text) : trimEnd (left ++ right) = left ++ trimEnd right := by
  have hleft : (left.reverse.dropWhile isBlank).reverse = left := trimEnd_eq_self hlast
  rw [trimEnd, List.reverse_append, List.dropWhile_append]
  split
  · next hright =>
      rw [hleft, trimEnd, List.isEmpty_iff.mp hright]
      exact (List.append_nil left).symm
  · rw [List.reverse_append, List.reverse_reverse, trimEnd]

theorem trimEnd_append_of_not_allBlank {right : Text} (hright : right.allBlank = false)
    (left : Text) : trimEnd (left ++ right) = left ++ trimEnd right := by
  have hne : right.reverse.dropWhile isBlank ≠ [] := by
    rw [Ne, ← trimStart, trimStart_eq_nil_iff, allBlank, List.all_reverse, ← allBlank, hright]
    exact Bool.false_ne_true
  rw [trimEnd, List.reverse_append, List.dropWhile_append, if_neg (by simpa using hne),
    List.reverse_append, List.reverse_reverse, trimEnd]

theorem trimEnd_of_allBlank {text : Text} (hblank : text.allBlank = true) : trimEnd text = [] :=
  trimEnd_append_of_allBlank hblank []

theorem trim_surrounded {left text right : Text} (hleft : left.allBlank = true)
    (hright : right.allBlank = true) (hhead : ∀ c ∈ text.head?, isBlank c = false)
    (hlast : ∀ c ∈ text.getLast?, isBlank c = false) : trim (left ++ (text ++ right)) = text := by
  cases text with
  | nil =>
      rw [List.nil_append]
      refine trim_eq_nil_iff.mpr ?_
      simp only [allBlank, List.all_append, Bool.and_eq_true]
      exact ⟨hleft, hright⟩
  | cons c rest =>
      have hstart : trimStart (c :: rest ++ right) = c :: rest ++ right :=
        trimStart_eq_self hhead
      rw [trim, trimStart_append_of_allBlank hleft, hstart, trimEnd_append_of_allBlank hright,
        trimEnd_eq_self hlast]

theorem head?_trim {line : Text} {c : Char} (hhead : line.head? = some c)
    (hblank : isBlank c = false) : line.trim.head? = some c := by
  obtain ⟨rest, rfl⟩ := List.head?_eq_some_iff.mp hhead
  have hstart : trimStart (c :: rest) = c :: rest := by
    apply trimStart_eq_self
    simpa using hblank
  rw [trim, hstart, trimEnd, List.reverse_cons, List.dropWhile_append]
  split <;> simp [hblank]

theorem trim_trimStart (text : Text) : text.trimStart.trim = text.trim := by
  rw [trim, trimStart_eq_self (isBlank_head?_trimStart text), trim]

theorem exists_trimStart (text : Text) :
    ∃ blanks : Text, blanks.allBlank = true ∧ text = blanks ++ text.trimStart :=
  ⟨text.takeWhile isBlank, List.all_takeWhile, List.takeWhile_append_dropWhile.symm⟩

theorem exists_trimEnd (text : Text) :
    ∃ blanks : Text, blanks.allBlank = true ∧ text = text.trimEnd ++ blanks := by
  refine ⟨(text.reverse.takeWhile isBlank).reverse, ?_, ?_⟩
  · rw [allBlank, List.all_reverse]
    exact List.all_takeWhile
  · rw [trimEnd, ← List.reverse_append, List.takeWhile_append_dropWhile, List.reverse_reverse]

private theorem trim_append_of_allBlank {right : Text} (hright : right.allBlank = true)
    (left : Text) :
    trim (left ++ right) = trim left := by
  cases hleft : left.allBlank with
  | true =>
      rw [trim_eq_nil_iff.mpr hleft, trim_eq_nil_iff, allBlank, List.all_append]
      exact Bool.and_eq_true_iff.mpr ⟨hleft, hright⟩
  | false =>
      rw [trim, trimStart_append_of_not_allBlank hleft, trimEnd_append_of_allBlank hright, trim]

theorem trim_trimEnd (text : Text) : text.trimEnd.trim = text.trim := by
  obtain ⟨blanks, hblanks, hsplit⟩ := exists_trimEnd text
  calc
    text.trimEnd.trim = trim (text.trimEnd ++ blanks) := (trim_append_of_allBlank hblanks _).symm
    _ = text.trim := congrArg trim hsplit.symm

theorem trimStart_trimEnd (text : Text) : text.trimEnd.trimStart = text.trim := by
  have hlast : ∀ c ∈ text.trimEnd.trimStart.getLast?, isBlank c = false := by
    intro c hc
    obtain ⟨front, hfront⟩ := List.dropWhile_suffix isBlank (l := text.trimEnd)
    apply isBlank_getLast?_trimEnd text
    rw [← hfront, List.getLast?_append, ← trimStart, Option.mem_def.mp hc]
    rfl
  rw [← trim_trimEnd, trim, trimEnd_eq_self hlast]

theorem allBlank_of_trim {left right : Text} (htrim : left.trim = right.trim) :
    left.allBlank = right.allBlank := by
  rw [Bool.eq_iff_iff, ← trim_eq_nil_iff, ← trim_eq_nil_iff, htrim]

theorem ne_nil_of_not_allBlank {text : Text} (hblank : text.allBlank = false) : text ≠ [] := by
  rintro rfl
  contradiction

theorem length_trim_le (text : Text) : text.trim.length ≤ text.length :=
  Nat.le_trans (trimEnd_isPrefix text.trimStart).length_le (List.dropWhile_suffix isBlank).length_le

end Docblock.Text
