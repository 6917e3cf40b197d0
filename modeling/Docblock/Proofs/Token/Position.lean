import Docblock.Proofs.Token.Scan

namespace Docblock

/-! Where the words of a text stand, and what becomes of their offsets when the text is a
part of a longer one. -/

def ByteRange.relocate (offset : Nat → Nat) (range : ByteRange) : ByteRange :=
  ⟨offset range.start, offset range.stop⟩

def Token.relocate (offset : Nat → Nat) (token : Token) : Token :=
  ⟨token.text, token.range.relocate offset⟩

namespace Text

/-- An offset between two characters of a text, or at one of its ends. -/
def IsBoundary (text : Text) (offset : Nat) : Prop :=
  ∃ before after, text = before ++ after ∧ offset = byteLength before

theorem IsBoundary.le {text : Text} {offset : Nat} (hboundary : text.IsBoundary offset) :
    offset ≤ text.byteLength := by
  obtain ⟨before, after, rfl, rfl⟩ := hboundary
  rw [byteLength_append]
  exact Nat.le_add_right _ _

private theorem takeBytes_append_of_le {count : Nat} {left : Text} (hle : count ≤ left.byteLength)
    (right : Text) : takeBytes count (left ++ right) = takeBytes count left := by
  induction left generalizing count with
  | nil =>
      obtain rfl : count = 0 := Nat.le_zero.mp hle
      simp
  | cons c rest ih =>
      rw [byteLength_cons] at hle
      cases count with
      | zero => simp
      | succ count =>
          have hrest : takeBytes (count + 1 - c.utf8Size) (rest ++ right) =
              takeBytes (count + 1 - c.utf8Size) rest := ih (by omega)
          simp only [List.cons_append, takeBytes, hrest]

private theorem dropBytes_add_append (left right : Text) (count : Nat) :
    dropBytes (left.byteLength + count) (left ++ right) = dropBytes count right := by
  induction left with
  | nil => simp
  | cons c rest ih =>
      have hpositive := c.utf8Size_pos
      have hrest : byteLength (c :: rest) + count - c.utf8Size = byteLength rest + count := by
        rw [byteLength_cons]
        omega
      obtain ⟨more, hmore⟩ := Nat.exists_eq_succ_of_ne_zero
        (show byteLength (c :: rest) + count ≠ 0 by rw [byteLength_cons]; omega)
      rw [List.cons_append, hmore, dropBytes, ← hmore, hrest, ih]
      simp

theorem slice_append_left {left : Text} {range : ByteRange}
    (hstart : left.IsBoundary range.start) (hstop : range.stop ≤ left.byteLength)
    (right : Text) : slice (left ++ right) range = slice left range := by
  obtain ⟨before, after, rfl, hbefore⟩ := hstart
  rw [byteLength_append] at hstop
  rw [slice, slice, hbefore, List.append_assoc, dropBytes_byteLength_append,
    dropBytes_byteLength_append, takeBytes_append_of_le]
  omega

theorem slice_append_right (left right : Text) (range : ByteRange) :
    slice (left ++ right) (range.relocate (left.byteLength + ·)) = slice right range := by
  rw [slice, slice, ByteRange.relocate, dropBytes_add_append, Nat.add_sub_add_left]

end Text

namespace Token

private theorem scan_add (shift offset : Nat) (text : Text) :
    scan (shift + offset) text = (scan offset text).map (relocate (shift + ·)) := by
  induction text using scan_induction generalizing offset with
  | nil => rfl
  | blank c rest hblank ih =>
      rw [scan_cons_blank hblank, scan_cons_blank hblank, Nat.add_assoc, ih]
  | last word hne hword =>
      rw [scan_word hne hword, scan_word hne hword, ofWord, Nat.add_assoc]
      rfl
  | word word c rest hne hword hblank ih =>
      have hapart := apart_cons_blank hblank word rest
      rw [scan_append hapart, scan_append hapart, scan_word hne hword, scan_word hne hword,
        scan_cons_blank hblank, scan_cons_blank hblank, Nat.add_assoc, Nat.add_assoc, ih,
        List.map_append, Nat.add_assoc, ofWord, Nat.add_assoc]
      rfl

theorem all_append {left right : Text} (hapart : Apart left right) :
    all (left ++ right) = all left ++ (all right).map (relocate (left.byteLength + ·)) := by
  rw [all, scan_append hapart, Nat.zero_add, ← Nat.add_zero left.byteLength, scan_add]
  rfl

theorem position_of_mem_scan {offset : Nat} {text : Text} {token : Token}
    (hmem : token ∈ scan offset text) :
    ∃ before after, text = before ++ (token.text ++ after) ∧
      token = ofWord (offset + before.byteLength) token.text ∧
      token.text ≠ [] ∧ token.text.any isBlank = false := by
  induction text using scan_induction generalizing offset with
  | nil => simp [scan] at hmem
  | blank c rest hblank ih =>
      rw [scan_cons_blank hblank] at hmem
      obtain ⟨before, after, hrest, htoken, hword⟩ := ih hmem
      refine ⟨c :: before, after, by rw [hrest]; rfl, ?_, hword⟩
      rwa [Nat.add_assoc, ← Text.byteLength_cons] at htoken
  | last word hne hword =>
      rw [scan_word hne hword, List.mem_singleton] at hmem
      subst hmem
      exact ⟨[], [], by simp [ofWord], by simp [ofWord], hne, hword⟩
  | word word c rest hne hword hblank ih =>
      rw [scan_append (apart_cons_blank hblank word rest), scan_word hne hword,
        scan_cons_blank hblank, List.singleton_append, List.mem_cons] at hmem
      rcases hmem with rfl | hmem
      · exact ⟨[], c :: rest, by simp [ofWord], by simp [ofWord], hne, hword⟩
      · obtain ⟨before, after, hrest, htoken, hlater⟩ := ih hmem
        refine ⟨word ++ c :: before, after, by simp [← hrest], ?_, hlater⟩
        rwa [Nat.add_assoc, Nat.add_assoc, ← Text.byteLength_cons,
          ← Text.byteLength_append] at htoken

theorem isWord_of_mem_words {text word : Text} (hmem : word ∈ words text) :
    word ≠ [] ∧ word.any isBlank = false := by
  obtain ⟨token, htoken, rfl⟩ := List.mem_map.mp hmem
  obtain ⟨-, -, -, -, hword⟩ := position_of_mem_scan htoken
  exact hword

theorem isBoundary_start {text : Text} {token : Token} (hmem : token ∈ all text) :
    text.IsBoundary token.range.start := by
  obtain ⟨before, after, htext, htoken, -⟩ := position_of_mem_scan hmem
  refine ⟨before, token.text ++ after, htext, ?_⟩
  rw [htoken]
  exact Nat.zero_add _

theorem isBoundary_stop {text : Text} {token : Token} (hmem : token ∈ all text) :
    text.IsBoundary token.range.stop := by
  obtain ⟨before, after, htext, htoken, -⟩ := position_of_mem_scan hmem
  refine ⟨before ++ token.text, after, by rw [htext, List.append_assoc], ?_⟩
  rw [htoken, ofWord, Nat.zero_add, Text.byteLength_append]

theorem start_le_stop_of_mem_scan {offset : Nat} {text : Text} {token : Token}
    (hmem : token ∈ scan offset text) : token.range.start ≤ token.range.stop := by
  obtain ⟨before, after, -, htoken, -⟩ := position_of_mem_scan hmem
  rw [htoken]
  exact Nat.le_add_right _ _

theorem pairwise_scan (offset : Nat) (text : Text) :
    (scan offset text).Pairwise fun first second => first.range.stop < second.range.start := by
  induction text using scan_induction generalizing offset with
  | nil => exact List.Pairwise.nil
  | blank c rest hblank ih =>
      rw [scan_cons_blank hblank]
      exact ih _
  | last word hne hword =>
      rw [scan_word hne hword]
      exact List.pairwise_singleton _ _
  | word word c rest hne hword hblank ih =>
      rw [scan_append (apart_cons_blank hblank word rest), scan_word hne hword,
        scan_cons_blank hblank, List.singleton_append, List.pairwise_cons]
      refine ⟨?_, ih _⟩
      intro later hlater
      obtain ⟨before, after, -, htoken, -⟩ := position_of_mem_scan hlater
      have hpositive := c.utf8Size_pos
      rw [htoken]
      simp only [ofWord]
      omega

theorem apart_of_blank_head? {right : Text} (hblank : right.head?.any isBlank = true)
    (left : Text) : Apart left right := by
  obtain ⟨c, hhead, hc⟩ := (Option.any_eq_true _ _).mp hblank
  refine .inr ?_
  rw [hhead]
  exact hc

theorem apart_of_blank_getLast? {left : Text} (hblank : left.getLast?.any isBlank = true)
    (before right : Text) : Apart (before ++ left) right := by
  obtain ⟨c, hlast, hc⟩ := (Option.any_eq_true _ _).mp hblank
  refine .inl ?_
  rw [List.getLast?_append, hlast]
  exact hc

theorem isBlank_of_mem_word {word : Text} {c : Char} (hword : word.any isBlank = false)
    (hmem : c ∈ word) : isBlank c = false := by
  simpa using List.any_eq_false.mp hword c hmem

theorem not_blank_getLast?_of_stop {text : Text} {token : Token} (hmem : token ∈ all text)
    (hstop : token.range.stop = text.byteLength) : text.getLast?.any isBlank = false := by
  obtain ⟨before, after, rfl, htoken, hne, hword⟩ := position_of_mem_scan hmem
  have hafter : after = [] := by
    apply Text.eq_nil_of_byteLength
    rw [htoken] at hstop
    simp only [ofWord, Text.byteLength_append] at hstop
    omega
  rw [hafter, List.append_nil, List.getLast?_append, List.getLast?_eq_some_getLast hne,
    Option.some_or, Option.any_some]
  exact isBlank_of_mem_word hword (List.getLast_mem hne)

theorem not_blank_head?_of_start {text : Text} {token : Token} (hmem : token ∈ all text)
    (hstart : token.range.start = 0) : text.head?.any isBlank = false := by
  obtain ⟨before, after, rfl, htoken, hne, hword⟩ := position_of_mem_scan hmem
  have hbefore : before = [] := by
    apply Text.eq_nil_of_byteLength
    rw [htoken] at hstart
    simp only [ofWord] at hstart
    omega
  rw [hbefore, List.nil_append, List.head?_append, List.head?_eq_some_head hne,
    Option.some_or, Option.any_some]
  exact isBlank_of_mem_word hword (List.head_mem hne)

end Token
end Docblock
