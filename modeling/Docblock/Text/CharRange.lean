namespace Docblock

/-- Inclusive range of code points. -/
structure CharRange where
  first : Nat
  last : Nat
  deriving DecidableEq, Repr

namespace CharRange

def Contains (range : CharRange) (c : Char) : Prop :=
  range.first ≤ c.toNat ∧ c.toNat ≤ range.last

instance (range : CharRange) (c : Char) : Decidable (range.Contains c) :=
  inferInstanceAs (Decidable (_ ∧ _))

def cover (ranges : List CharRange) (c : Char) : Bool :=
  ranges.any fun range => decide (range.Contains c)

end CharRange
end Docblock
