import Docblock.Markers
import Docblock.Span.Basic

namespace Docblock

structure MarkerPair where
  start : Text
  close : Text
  kind : SpanKind
  deriving DecidableEq, Repr

namespace Markers

def docPair (markers : Markers) : MarkerPair :=
  ⟨markers.openBlock, markers.closeBlock, .doc⟩

def codePair (markers : Markers) : MarkerPair :=
  ⟨markers.codeStart, markers.codeEnd, .snippet⟩

end Markers

namespace Span

/-! Pairing goes from left to right: a start marker opens a region when none is open, and
the first end marker after it closes the region. -/

/-- The regions of the tokens from an index on, where `opened` is the index of the start
marker of the region that is open.  A region that stays open is left out. -/
def pairFrom (language : Language) (markers : MarkerPair) (excluded : List Span) :
    Option Nat → Nat → List Token → List Span
  | _, _, [] => []
  | opened, index, token :: rest =>
      if excluded.any fun span => span.covers index then
        pairFrom language markers excluded opened (index + 1) rest
      else if Token.isMarker language markers.start token.text then
        pairFrom language markers excluded (some (opened.getD index)) (index + 1) rest
      else if Token.isMarker language markers.close token.text then
        match opened with
        | some start =>
            ⟨start, some index, markers.kind⟩ ::
              pairFrom language markers excluded none (index + 1) rest
        | none => pairFrom language markers excluded none (index + 1) rest
      else pairFrom language markers excluded opened (index + 1) rest

def pair (language : Language) (markers : MarkerPair) (excluded : List Span)
    (tokens : List Token) : List Span :=
  pairFrom language markers excluded none 0 tokens

/-- Whether a region is documentation that ends after another one begins. -/
def closesAfter (snippet span : Span) : Bool :=
  span.kind = .doc && span.close.any fun close => snippet.start < close

/-- Puts a snippet before the first documentation that ends after it begins. -/
def insertSnippet (snippet : Span) : List Span → List Span
  | [] => [snippet]
  | span :: rest =>
      if closesAfter snippet span then snippet :: span :: rest
      else span :: insertSnippet snippet rest

def merge (docs snippets : List Span) : List Span :=
  snippets.foldl (fun merged snippet => insertSnippet snippet merged) docs

end Span

structure Regions where
  snippets : List Span
  docs : List Span
  deriving DecidableEq, Repr

namespace Regions

/-- Snippets are found first, and documentation outside of them. -/
def find (language : Language) (markers : Markers) (tokens : List Token) : Regions :=
  let snippets := Span.pair language markers.codePair [] tokens
  ⟨snippets, Span.pair language markers.docPair snippets tokens⟩

def merged (regions : Regions) : List Span :=
  Span.merge regions.docs regions.snippets

end Regions
end Docblock
