import Docblock.Proofs.Token.Position

namespace Docblock

/-! Ranges that follow one another without a gap cut a text into slices that are the text
again, and share its bytes out among themselves. -/

namespace Text

private theorem takeBytes_add_append (left right : Text) (count : Nat) :
    takeBytes (left.byteLength + count) (left ++ right) = left ++ takeBytes count right := by
  induction left with
  | nil => simp
  | cons c rest ih =>
      have hpositive := c.utf8Size_pos
      have hrest : byteLength (c :: rest) + count - c.utf8Size = byteLength rest + count := by
        rw [byteLength_cons]
        omega
      obtain ⟨more, hmore⟩ := Nat.exists_eq_succ_of_ne_zero
        (show byteLength (c :: rest) + count ≠ 0 by rw [byteLength_cons]; omega)
      rw [List.cons_append, hmore, takeBytes, ← hmore, hrest, ih]
      · rfl
      · simp

theorem slice_append_slice {text : Text} {start middle stop : Nat}
    (hstart : text.IsBoundary start) (hmiddle : text.IsBoundary middle) (hle : start ≤ middle)
    (hle' : middle ≤ stop) :
    slice text ⟨start, middle⟩ ++ slice text ⟨middle, stop⟩ = slice text ⟨start, stop⟩ := by
  obtain ⟨before, after, rfl, rfl⟩ := hstart
  obtain ⟨before', after', hsplit, rfl⟩ := hmiddle
  obtain ⟨inner, rfl⟩ := prefix_of_byteLength_le hsplit hle
  obtain rfl : after = inner ++ after' := by
    rw [List.append_assoc] at hsplit
    exact List.append_cancel_left hsplit
  have hcount : stop - before.byteLength =
      byteLength inner + (stop - byteLength (before ++ inner)) := by
    rw [byteLength_append] at hle' ⊢
    omega
  have hfirst : slice (before ++ (inner ++ after'))
      ⟨before.byteLength, byteLength (before ++ inner)⟩ = inner := by
    rw [← List.append_assoc, byteLength_append]
    exact slice_append before inner after'
  have hsecond : slice (before ++ (inner ++ after')) ⟨byteLength (before ++ inner), stop⟩ =
      takeBytes (stop - byteLength (before ++ inner)) after' := by
    rw [slice, ← List.append_assoc, dropBytes_byteLength_append]
  rw [hfirst, hsecond, slice, dropBytes_byteLength_append, hcount, takeBytes_add_append]

end Text

namespace ByteRange

def holds (range : ByteRange) (offset : Nat) : Bool :=
  range.start ≤ offset && offset < range.stop

/-- A range that can be cut from a text: it is in bounds and splits no character. -/
structure Fits (text : Text) (range : ByteRange) : Prop where
  start_le_stop : range.start ≤ range.stop
  stop_le_length : range.stop ≤ text.byteLength
  start_boundary : text.IsBoundary range.start
  stop_boundary : text.IsBoundary range.stop

theorem fits_of_boundaries {text : Text} {range : ByteRange} (hle : range.start ≤ range.stop)
    (hstart : text.IsBoundary range.start) (hstop : text.IsBoundary range.stop) :
    range.Fits text :=
  ⟨hle, hstop.le, hstart, hstop⟩

/-- Ranges that lead from one offset to another, each beginning where the one before ends. -/
inductive Tiles : Nat → Nat → List ByteRange → Prop where
  | nil (offset : Nat) : Tiles offset offset []
  | cons {start middle stop : Nat} {rest : List ByteRange} (hle : start ≤ middle)
      (hrest : Tiles middle stop rest) : Tiles start stop (⟨start, middle⟩ :: rest)

namespace Tiles

variable {start stop : Nat} {ranges : List ByteRange}

theorem le (htiles : Tiles start stop ranges) : start ≤ stop := by
  induction htiles with
  | nil offset => exact Nat.le_refl offset
  | cons hle hrest ih => exact Nat.le_trans hle ih

/-- The slices of a text along a tiling put its part between the two ends together again. -/
theorem flatMap_slice (htiles : Tiles start stop ranges) {text : Text}
    (hfits : ∀ range ∈ ranges, range.Fits text) :
    ranges.flatMap text.slice = text.slice ⟨start, stop⟩ := by
  induction htiles with
  | nil offset => simp [Text.slice]
  | @cons start middle stop rest hle hrest ih =>
      rw [List.forall_mem_cons] at hfits
      rw [List.flatMap_cons, ih hfits.2]
      exact Text.slice_append_slice hfits.1.start_boundary hfits.1.stop_boundary hle hrest.le

theorem countP_holds (htiles : Tiles start stop ranges) (offset : Nat) :
    ranges.countP (·.holds offset) = if start ≤ offset ∧ offset < stop then 1 else 0 := by
  induction htiles with
  | nil here =>
      rw [List.countP_nil, if_neg (by omega)]
  | @cons start middle stop rest hle hrest ih =>
      have hafter := hrest.le
      rw [List.countP_cons, ih]
      by_cases hmiddle : middle ≤ offset
      · have hpast : holds ⟨start, middle⟩ offset = false := by
          simp only [holds, Bool.and_eq_false_iff, decide_eq_false_iff_not]
          omega
        rw [hpast, if_neg Bool.false_ne_true, Nat.add_zero]
        congr 1
        rw [eq_iff_iff]
        omega
      · rw [if_neg (by omega), Nat.zero_add]
        congr 1
        rw [eq_iff_iff]
        simp only [holds, Bool.and_eq_true, decide_eq_true_eq]
        omega

end Tiles

end ByteRange
end Docblock
