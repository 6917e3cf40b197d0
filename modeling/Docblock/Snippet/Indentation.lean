import Docblock.Text.Blank

namespace Docblock.Indentation

/-! The indentation of a line is its leading run of tabs and spaces.  What the inner
lines of a text share of it is taken off every line. -/

def isIndent (c : Char) : Bool :=
  c = '\t' || c = ' '

def indentOf (line : Text) : Text :=
  line.takeWhile isIndent

def tabs (line : Text) : Nat :=
  (indentOf line).count '\t'

def spaces (line : Text) : Nat :=
  (indentOf line).count ' '

def interior (lines : List Text) : List Text :=
  lines.tail.dropLast

/-- The inner lines that have a character other than blanks. -/
def measured (text : Text) : List Text :=
  (interior text.lines).filter fun line => !line.allBlank

def sharedTabs (text : Text) : Nat :=
  ((measured text).map tabs).min?.getD 0

def sharedSpaces (text : Text) : Nat :=
  ((measured text).map spaces).min?.getD 0

/-- Takes at most so many tabs and spaces off the indentation of a line, the first
ones. -/
def stripLine : Nat → Nat → Text → Text
  | _, _, [] => []
  | tabs, spaces, c :: rest =>
      if c = '\t' then
        match tabs with
        | 0 => c :: stripLine 0 spaces rest
        | tabs + 1 => stripLine tabs spaces rest
      else if c = ' ' then
        match spaces with
        | 0 => c :: stripLine tabs 0 rest
        | spaces + 1 => stripLine tabs spaces rest
      else c :: rest

def normalize (text : Text) : Text :=
  Text.unlines (text.lines.map (stripLine (sharedTabs text) (sharedSpaces text)))

end Docblock.Indentation
