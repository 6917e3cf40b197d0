import Docblock.Document.Markdown
import Docblock.Document.Structured

namespace Docblock

def footerLine : Text :=
  "generated with [EasyGen](https://github.com/dede-amdp/easygen)".toList

inductive Format where
  | markdown
  | json
  deriving DecidableEq, Repr

namespace Format

def ofName? (name : Text) : Option Format :=
  if name = "markdown".toList ∨ name = "md".toList then some .markdown
  else if name = "json".toList then some .json
  else none

def fileExtension : Format → Text
  | .markdown => "md".toList
  | .json => "json".toList

def renderFile : Format → DocFile → Text
  | .markdown, file => Markdown.renderFile file
  | .json, file => Structured.renderFile file

/-- The document of some sections; JSON has no place for a footer. -/
def assemble (format : Format) (sections : List Text) (footer : Option Text) : Text :=
  match format with
  | .markdown => Markdown.assemble sections footer
  | .json => Structured.assemble sections

end Format
end Docblock
