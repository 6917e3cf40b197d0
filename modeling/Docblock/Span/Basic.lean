import Docblock.Token

namespace Docblock

inductive SpanKind where
  | doc
  | snippet
  deriving DecidableEq, Repr

/-- A region between two marker tokens, given by their indices.  A region that has no
end yet has no `close`. -/
structure Span where
  start : Nat
  close : Option Nat
  kind : SpanKind
  deriving DecidableEq, Repr

namespace Span

def isResolved (span : Span) : Bool :=
  span.close.any fun close => span.start < close

/-- Whether another region lies strictly between the markers of this one. -/
def encloses (outer inner : Span) : Bool :=
  match outer.close, inner.close with
  | some outerClose, some innerClose =>
      outer.start < inner.start && innerClose < outerClose
  | _, _ => false

/-- Whether a closed region holds the token with an index, its markers included. -/
def covers (span : Span) (index : Nat) : Bool :=
  span.close.any fun close => span.start ≤ index && index ≤ close

def inner? (tokens : List Token) (span : Span) : Option ByteRange := do
  let start ← tokens[span.start]?
  let close ← tokens[← span.close]?
  some ⟨start.range.stop, close.range.start⟩

/-- The bytes from the first of the opening marker to the last of the closing one. -/
def outer? (tokens : List Token) (span : Span) : Option ByteRange := do
  let start ← tokens[span.start]?
  let close ← tokens[← span.close]?
  some ⟨start.range.start, close.range.stop⟩

end Span
end Docblock
