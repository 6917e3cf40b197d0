import Docblock.Language.Basic
import Docblock.Markers
import Docblock.Snippet.Indentation

namespace Docblock.Snippet

def unescape (markers : Markers) (text : Text) : Text :=
  [markers.codeStart, markers.codeEnd, markers.openBlock, markers.closeBlock].foldl
    (fun text marker => text.replace (markers.escape :: marker) marker) text

/-- Takes each of the symbols off the front once, with the blanks after it. -/
def stripOnce (symbols : List Text) (text : Text) : Text :=
  symbols.foldl
    (fun text symbol =>
      match symbol.isPrefixOf? text with
      | some rest => Text.trimStart rest
      | none => text)
    text

/-- Whether a line is nothing but comment symbols and blanks.  A pass over the symbols
that takes anything off takes a character, so a pass per character reaches the end. -/
def isRemnant (language : Language) (line : Text) : Bool :=
  (line.length.repeat (stripOnce language.remnantSymbols) line.trim).isEmpty

/-- Drops a first line of comment symbols; another one loses its indentation. -/
def settleFirst (language : Language) : List Text → List Text
  | [] => []
  | first :: rest =>
      if isRemnant language first then rest else first.trimStart :: rest

def settleLast (language : Language) (lines : List Text) : List Text :=
  if lines.getLast?.any (isRemnant language) then lines.dropLast else lines

def trimLines (lines : List Text) : List Text :=
  ((lines.dropWhile Text.allBlank).reverse.dropWhile Text.allBlank).reverse

def normalize (language : Language) (markers : Markers) (text : Text) : Text :=
  let lines := (Indentation.normalize (unescape markers text)).lines.map Text.trimEnd
  Text.unlines (trimLines (settleLast language (settleFirst language lines)))

end Docblock.Snippet
