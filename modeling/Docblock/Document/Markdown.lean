import Docblock.DocFile
import Docblock.FileName

namespace Docblock.Markdown

/-- One space for every run of blanks. -/
def squeeze : Text → Text
  | [] => []
  | c :: rest =>
      if isBlank c then
        if rest.head?.any isBlank then squeeze rest else ' ' :: squeeze rest
      else c :: squeeze rest

/-- A text on one line, without blanks around it. -/
def collapse (text : Text) : Text :=
  squeeze text.trim

def dividesName (c : Char) : Bool :=
  isBlank c || c = '_' || c = '-'

/-- The words of a tag name, each with a capital. -/
def titleCase (name : Text) : Text :=
  List.intercalate [' '] (((name.splitOnP dividesName).filter (· ≠ [])).map Text.capitalize)

def title (fileName : Text) : Text :=
  Text.capitalize (FileName.stem fileName)

def backtick : Char := '\x60'

def longestRun (code : Text) : Nat :=
  ((code.splitOnP (· ≠ backtick)).map List.length).max?.getD 0

/-- At least three backticks, and more than stand together in the code. -/
def fence (code : Text) : Text :=
  List.replicate (max (longestRun code) 2 + 1) backtick

/-- A character of a table cell: a cell divides no columns and stays on its row. -/
def cellChar (c : Char) : Text :=
  if c = '|' then ['\\', '|'] else if c = '\n' then "<br>".toList else [c]

def tableCell (content : Text) : Text :=
  content.flatMap cellChar

def tableRow (name content : Text) : Text :=
  "|**".toList ++ titleCase name ++ "**|".toList ++ tableCell content ++ ['|']

def heading (mark : String) (content : Text) : Text :=
  mark.toList ++ collapse content ++ ['\n']

def paragraph (content : Text) : Text :=
  content ++ ['\n']

def reservedLines (tag : ReservedTag) (content : Text) : List Text :=
  match tag with
  | .name => [heading "## " content]
  | .brief => [heading "> " content]
  | .notes => [paragraph content]
  | .inputs => [paragraph "### Inputs".toList, paragraph content]
  | .outputs => [paragraph "### Outputs".toList, paragraph content]

def reservedOrder : List ReservedTag :=
  [.name, .brief, .notes, .inputs, .outputs]

def customLines : List (Text × Text) → List Text
  | [] => []
  | fields =>
      ["|Field Name|Description|".toList, "|:---:|:---:|".toList] ++
        fields.map (fun (name, content) => tableRow name content) ++ [[]]

def snippetLines (extension code : Text) : List Text :=
  [fence code ++ extension, code, fence code, []]

def blockLines (extension : Text) (block : FieldMap) : List Text :=
  (reservedOrder.flatMap fun tag => (block.reserved? tag).toList.flatMap (reservedLines tag)) ++
    customLines block.custom ++
    block.snippets.flatMap fun (_, code) => snippetLines extension code

def renderFile (file : DocFile) : Text :=
  Text.unlines
    (("# ".toList ++ title file.name) :: [] ::
      file.blocks.flatMap (blockLines file.extension) ++ ["---".toList]) ++ ['\n']

def assemble (sections : List Text) (footer : Option Text) : Text :=
  List.intercalate ['\n'] sections ++
    match footer with
    | none => []
    | some footer => ['\n'] ++ footer ++ ['\n']

end Docblock.Markdown
