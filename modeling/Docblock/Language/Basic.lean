import Docblock.Text.Blank

namespace Docblock

/-- How comments are written in the files with one extension. -/
structure Language where
  extension : Text
  blockStart : Text
  blockEnd : Text
  lineComment : Option Text
  /-- Symbols that decorate the lines of a comment. -/
  noise : List Text
  deriving DecidableEq, Repr

namespace Language

inductive Fault where
  | extension
  | blockDelimiter
  | lineComment
  | noise
  deriving DecidableEq, Repr

def Fault.reason : Fault → Text
  | .extension => "extension must be non-empty and without a dot".toList
  | .blockDelimiter => "block delimiters must be non-empty".toList
  | .lineComment => "line comment symbol must be non-empty".toList
  | .noise => "noise symbols must be non-empty".toList

def fault? (language : Language) : Option Fault :=
  if language.extension = [] ∨ '.' ∈ language.extension then some .extension
  else if language.blockStart.allBlank || language.blockEnd.allBlank then
    some .blockDelimiter
  else if language.lineComment.any Text.allBlank then some .lineComment
  else if language.noise.any Text.allBlank then some .noise
  else none

/-- Longest symbols first, and of neighbours that are equal one. -/
def arrange (symbols : List Text) : List Text :=
  (symbols.mergeSort fun left right => right.byteLength ≤ left.byteLength).eraseReps

/-- The symbols that may begin a decorated comment line. -/
def decorationSymbols (language : Language) : List Text :=
  arrange (language.lineComment.toList ++ language.noise)

/-- The symbols that may be left on the line of a marker. -/
def remnantSymbols (language : Language) : List Text :=
  arrange (language.blockStart :: language.blockEnd :: language.decorationSymbols)

end Language
end Docblock
