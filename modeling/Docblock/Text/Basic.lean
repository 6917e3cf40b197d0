namespace Docblock

/-! A text is its list of characters.  Offsets into a text count the bytes of its
UTF-8 form. -/

abbrev Text := List Char

/-- Half-open range of byte offsets. -/
structure ByteRange where
  start : Nat
  stop : Nat
  deriving DecidableEq, Repr

namespace Text

def byteLength : Text → Nat
  | [] => 0
  | c :: rest => c.utf8Size + byteLength rest

@[simp] theorem byteLength_nil : byteLength [] = 0 := rfl

@[simp] theorem byteLength_cons (c : Char) (rest : Text) :
    byteLength (c :: rest) = c.utf8Size + byteLength rest := rfl

@[simp] theorem byteLength_append (left right : Text) :
    byteLength (left ++ right) = byteLength left + byteLength right := by
  induction left with
  | nil => simp
  | cons c rest ih => simp [ih, Nat.add_assoc]

theorem eq_nil_of_byteLength {text : Text} (hlength : text.byteLength = 0) : text = [] := by
  cases text with
  | nil => rfl
  | cons c rest =>
      have hpositive := c.utf8Size_pos
      rw [byteLength_cons] at hlength
      omega

theorem prefix_of_byteLength_le {left right left' right' : Text}
    (hsplit : left ++ right = left' ++ right') (hle : left.byteLength ≤ left'.byteLength) :
    left <+: left' := by
  rcases List.append_eq_append_iff.mp hsplit with ⟨middle, rfl, -⟩ | ⟨middle, hleft, -⟩
  · exact List.prefix_append left middle
  · rw [hleft, byteLength_append] at hle
    obtain rfl : middle = [] := eq_nil_of_byteLength (by omega)
    rw [List.append_nil] at hleft
    exact hleft ▸ List.prefix_rfl

def dropBytes : Nat → Text → Text
  | _, [] => []
  | 0, text => text
  | count, c :: rest => dropBytes (count - c.utf8Size) rest

def takeBytes : Nat → Text → Text
  | _, [] => []
  | 0, _ => []
  | count, c :: rest => c :: takeBytes (count - c.utf8Size) rest

def slice (text : Text) (range : ByteRange) : Text :=
  takeBytes (range.stop - range.start) (dropBytes range.start text)

@[simp] theorem dropBytes_zero (text : Text) : dropBytes 0 text = text := by
  cases text <;> rfl

@[simp] theorem takeBytes_zero (text : Text) : takeBytes 0 text = [] := by
  cases text <;> rfl

theorem dropBytes_byteLength_append (left right : Text) :
    dropBytes left.byteLength (left ++ right) = right := by
  induction left with
  | nil => simp
  | cons c rest ih =>
      have hpositive := c.utf8Size_pos
      rw [List.cons_append, byteLength_cons]
      obtain ⟨count, hcount⟩ :=
        Nat.exists_eq_succ_of_ne_zero (n := c.utf8Size + byteLength rest) (by omega)
      rw [hcount, dropBytes, ← hcount, Nat.add_sub_cancel_left]
      · exact ih
      · omega

theorem takeBytes_byteLength_append (left right : Text) :
    takeBytes left.byteLength (left ++ right) = left := by
  induction left with
  | nil => simp
  | cons c rest ih =>
      have hpositive := c.utf8Size_pos
      rw [List.cons_append, byteLength_cons]
      obtain ⟨count, hcount⟩ :=
        Nat.exists_eq_succ_of_ne_zero (n := c.utf8Size + byteLength rest) (by omega)
      rw [hcount, takeBytes, ← hcount, Nat.add_sub_cancel_left, ih]
      omega

theorem slice_append (before inner after : Text) :
    slice (before ++ inner ++ after)
        ⟨before.byteLength, before.byteLength + inner.byteLength⟩ = inner := by
  rw [slice, List.append_assoc, dropBytes_byteLength_append, Nat.add_sub_cancel_left,
    takeBytes_byteLength_append]

def lines (text : Text) : List Text :=
  text.splitOn '\n'

def unlines (lines : List Text) : Text :=
  List.intercalate ['\n'] lines

theorem unlines_lines (text : Text) : unlines (lines text) = text :=
  List.intercalate_splitOn '\n'

/-! Replacement goes from left to right, and what a match covers is not searched
again. -/

/-- Replaces in the part of a text that follows its first `skip` characters. -/
def replaceAfter (pattern replacement : Text) : Nat → Text → Text
  | _, [] => []
  | skip + 1, _ :: rest => replaceAfter pattern replacement skip rest
  | 0, c :: rest =>
      if pattern.isPrefixOf (c :: rest) then
        replacement ++ replaceAfter pattern replacement (pattern.length - 1) rest
      else c :: replaceAfter pattern replacement 0 rest

def replace (text pattern replacement : Text) : Text :=
  replaceAfter pattern replacement 0 text

theorem replaceAfter_eq_drop (pattern replacement : Text) (skip : Nat) (text : Text) :
    replaceAfter pattern replacement skip text =
      replace (text.drop skip) pattern replacement := by
  induction text generalizing skip with
  | nil => cases skip <;> rfl
  | cons c rest ih =>
      cases skip with
      | zero => rfl
      | succ skip => simpa [replaceAfter] using ih skip

end Text
end Docblock
