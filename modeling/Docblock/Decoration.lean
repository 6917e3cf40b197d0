import Docblock.Language.Basic

namespace Docblock.Decoration

/-! A comment is decorated when every line after the first that is not blank begins with
one symbol, and a tag follows the symbol on some line. -/

/-- The trimmed lines after the first, blank ones left out. -/
def content (lines : List Text) : List Text :=
  (lines.tail.map Text.trim).filter (· ≠ [])

def decorates (tag : Char) (lines : List Text) (symbol : Text) : Bool :=
  lines.all (symbol.isPrefixOf ·) &&
    lines.any fun line => (Text.trimStart (line.drop symbol.length)).head? = some tag

/-- Takes the symbol off the front of a line, with one space after it. -/
def stripLine (symbol line : Text) : Text :=
  match symbol.isPrefixOf? line.trimStart with
  | none => line
  | some (' ' :: rest) => rest
  | some rest => rest

def strip (language : Language) (tag : Char) (text : Text) : Text :=
  match language.decorationSymbols.find? (decorates tag (content text.lines)) with
  | none => text
  | some symbol =>
      Text.unlines (text.lines.take 1 ++ (text.lines.drop 1).map (stripLine symbol))

end Docblock.Decoration
