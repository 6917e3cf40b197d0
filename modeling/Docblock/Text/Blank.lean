import Docblock.Text.Basic
import Docblock.Text.CharRange

namespace Docblock

/-! Blank characters are those with the Unicode property White_Space. -/

def blankRanges : List CharRange :=
  [⟨0x9, 0xd⟩, ⟨0x20, 0x20⟩, ⟨0x85, 0x85⟩, ⟨0xa0, 0xa0⟩, ⟨0x1680, 0x1680⟩, ⟨0x2000, 0x200a⟩,
    ⟨0x2028, 0x2029⟩, ⟨0x202f, 0x202f⟩, ⟨0x205f, 0x205f⟩, ⟨0x3000, 0x3000⟩]

def isBlank (c : Char) : Bool :=
  CharRange.cover blankRanges c

namespace Text

def trimStart (text : Text) : Text :=
  text.dropWhile isBlank

def trimEnd (text : Text) : Text :=
  (text.reverse.dropWhile isBlank).reverse

def trim (text : Text) : Text :=
  trimEnd (trimStart text)

def allBlank (text : Text) : Bool :=
  text.all isBlank

theorem trimStart_eq_nil_iff {text : Text} :
    text.trimStart = [] ↔ text.allBlank = true := by
  induction text with
  | nil => simp [trimStart, allBlank]
  | cons c rest ih =>
      cases hblank : isBlank c <;>
        simp_all [trimStart, allBlank]

theorem allBlank_trimStart {text : Text} :
    text.trimStart.allBlank = text.allBlank := by
  induction text with
  | nil => rfl
  | cons c rest ih =>
      cases hblank : isBlank c <;>
        simp_all [trimStart, allBlank]

theorem trim_eq_nil_iff {text : Text} : text.trim = [] ↔ text.allBlank = true := by
  rw [← allBlank_trimStart, trim, trimEnd, List.reverse_eq_nil_iff]
  exact trimStart_eq_nil_iff.trans (by simp [allBlank])

end Text
end Docblock
