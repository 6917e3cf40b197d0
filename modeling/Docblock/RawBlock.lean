import Docblock.Decoration
import Docblock.Snippet.Basic
import Docblock.Span.Pairing

namespace Docblock

structure NumberedCode where
  index : Nat
  text : Text
  deriving DecidableEq, Repr

/-- The text of one documentation block and the code that belongs to it. -/
structure RawBlock where
  body : Text
  snippets : List NumberedCode
  deriving DecidableEq, Repr

namespace RawBlock

def snippetName (index : Nat) : Text :=
  "_code_snippet_".toList ++ Nat.toDigits 10 index

/-- The body, and then a line for each snippet in the manner of a tag. -/
def toText (block : RawBlock) : Text :=
  block.body ++ block.snippets.flatMap fun snippet =>
    Markers.standard.tag :: snippetName snippet.index ++
      Markers.standard.description :: snippet.text ++ ['\n']

end RawBlock

/-! Extraction.  The regions of a file give pieces: a block opens, or code is attached to
the block that opened last. -/

/-- What a region adds to the blocks of a file. -/
inductive Piece where
  | opening (body : Text)
  | code (text : Text)
  deriving DecidableEq, Repr

namespace Extraction

/-- The bytes kept between a cursor and an end when some ranges are cut out. -/
def keptRanges (cursor stop : Nat) : List ByteRange → List ByteRange
  | [] => [⟨cursor, stop⟩]
  | cut :: cuts => ⟨cursor, cut.start⟩ :: keptRanges cut.stop stop cuts

def nested (spans : List Span) (doc : Span) : List Span :=
  spans.filter fun span => span.kind = .snippet && doc.encloses span

/-- The ranges of a documentation region that belong to no snippet inside it. -/
def bodyRanges (tokens : List Token) (spans : List Span) (doc : Span) : List ByteRange :=
  match doc.inner? tokens with
  | none => []
  | some inner =>
      keptRanges inner.start inner.stop
        ((nested spans doc).filterMap fun span => span.outer? tokens)

def between (text : Text) (tokens : List Token) (span : Span) : Text :=
  ((span.inner? tokens).map text.slice).getD []

/-- The text of a documentation region without its snippets and its decoration. -/
def bodyOf (language : Language) (markers : Markers) (text : Text) (tokens : List Token)
    (spans : List Span) (doc : Span) : Text :=
  Decoration.strip language markers.tag ((bodyRanges tokens spans doc).flatMap text.slice)

def isTagged (markers : Markers) (body : Text) : Bool :=
  body.trimStart.head? = some markers.tag

def codePiece (language : Language) (markers : Markers) (text : Text) : List Piece :=
  match Snippet.normalize language markers text with
  | [] => []
  | code => [.code code]

/-- A tagged body opens a block, and a body without a tag is attached like code. -/
def bodyPiece (language : Language) (markers : Markers) (body : Text) : List Piece :=
  if isTagged markers body then [.opening body]
  else if body.allBlank then []
  else codePiece language markers body

def isNested (spans : List Span) (snippet : Span) : Bool :=
  spans.any fun span => span.kind = .doc && span.encloses snippet

/-- The pieces of one region: a documentation region gives its body and then the snippets
inside it, and a snippet on its own gives itself. -/
def piecesOf (language : Language) (markers : Markers) (text : Text) (tokens : List Token)
    (spans : List Span) (span : Span) : List Piece :=
  match span.kind with
  | .doc =>
      bodyPiece language markers (bodyOf language markers text tokens spans span) ++
        (nested spans span).flatMap fun snippet =>
          codePiece language markers (between text tokens snippet)
  | .snippet =>
      if isNested spans span then []
      else codePiece language markers (between text tokens span)

def pieces (language : Language) (markers : Markers) (text : Text) (tokens : List Token)
    (spans : List Span) : List Piece :=
  spans.flatMap (piecesOf language markers text tokens spans)

/-- The code that stands before any block, and the blocks with the code after each. -/
def group : List Piece → List Text × List (Text × List Text)
  | [] => ([], [])
  | .code code :: rest =>
      let grouped := group rest
      (code :: grouped.1, grouped.2)
  | .opening body :: rest =>
      let grouped := group rest
      ([], (body, grouped.1) :: grouped.2)

def number (next : Nat) : List (Text × List Text) → List RawBlock
  | [] => []
  | (body, codes) :: rest =>
      ⟨body, (codes.zipIdx next).map fun (text, index) => ⟨index, text⟩⟩ ::
        number (next + codes.length) rest

/-- The blocks of a text with given regions; code before any block is dropped. -/
def blocks (language : Language) (markers : Markers) (text : Text) (tokens : List Token)
    (spans : List Span) : List RawBlock :=
  number 0 (group (pieces language markers text tokens spans)).2

end Extraction

def RawBlock.all (language : Language) (markers : Markers) (text : Text) : List RawBlock :=
  let tokens := Token.all text
  Extraction.blocks language markers text tokens
    (Regions.find language markers tokens).merged

end Docblock
