import Docblock.Language.Basic

namespace Docblock

structure Token where
  text : Text
  range : ByteRange
  deriving DecidableEq, Repr

namespace Token

def startsWord (text : Text) : Bool :=
  text.head?.any fun c => !isBlank c

/-- Puts a character in front of a token that begins right after it. -/
def extend (offset : Nat) (c : Char) (token : Token) : Token :=
  ⟨c :: token.text, ⟨offset, token.range.stop⟩⟩

def scan (offset : Nat) : Text → List Token
  | [] => []
  | c :: rest =>
      let tokens := scan (offset + c.utf8Size) rest
      if isBlank c then tokens
      else if startsWord rest then tokens.modifyHead (extend offset c)
      else ⟨[c], ⟨offset, offset + c.utf8Size⟩⟩ :: tokens

/-- The maximal runs without a blank, in order. -/
def all (text : Text) : List Token :=
  scan 0 text

/-- A word with each comment symbol that may be glued to its front taken off, and the
word itself. -/
def heads (language : Language) (word : Text) : List Text :=
  word ::
    (language.blockStart :: language.lineComment.toList).filterMap fun symbol =>
      symbol.isPrefixOf? word

/-- Whether a word is a marker, possibly glued to comment symbols. -/
def isMarker (language : Language) (marker word : Text) : Bool :=
  (heads language word).any fun head =>
    head = marker || language.blockEnd.isSuffixOf? head = some marker

end Token
end Docblock
