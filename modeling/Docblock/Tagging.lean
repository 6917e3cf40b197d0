import Docblock.Field
import Docblock.Markers
import Docblock.RawBlock
import Docblock.Text.Blank
import Docblock.Text.Word

namespace Docblock

inductive TagFault where
  /-- The tags and the contents that were found are not one content for each tag. -/
  | misaligned (tags contents : List Text)
  /-- A tag begins inside the name of another. -/
  | overlap
  deriving DecidableEq, Repr

namespace TagFault

def message : TagFault → Text
  | .misaligned tags contents =>
      "the tags do not line up with the contents ".toList ++
        "(maybe a tag without contents was added?)\n".toList ++
        "Tags found: ".toList ++ Nat.toDigits 10 tags.length ++
        ", Contents found: ".toList ++ Nat.toDigits 10 contents.length ++
        "\nTags:\n".toList ++ List.intercalate "\n---\n".toList tags ++
        "\nContents:\n".toList ++ List.intercalate "\n---\n".toList contents
  | .overlap => "a tag begins inside the name of another".toList

end TagFault

namespace Tagging

/-! A tag is the tag character, a name and the description character.  Tag characters
after an escape are content, as are those that neither begin a tag nor stand free. -/

def isNameChar (c : Char) : Bool :=
  isWord c || c = '-'

/-- The longest name that begins a text and has the description character after it. -/
def name? (description : Char) : Text → Option Text
  | [] => none
  | c :: rest =>
      if isNameChar c then
        match name? description rest with
        | some name => some (c :: name)
        | none => if rest.head? = some description then some [c] else none
      else none

/-- A tag in a body: its name in lowercase, and where it and its content begin. -/
structure Boundary where
  name : Text
  offset : Nat
  contentOffset : Nat
  deriving DecidableEq, Repr

/-- What an unescaped tag character is: the beginning of a tag, or loose. -/
inductive Mark where
  | boundary (found : Boundary)
  | loose
  deriving DecidableEq, Repr

def isFree (c : Option Char) : Bool :=
  c.all isBlank

def markAt (markers : Markers) (before : Option Char) (offset : Nat) (after : Text) :
    Option Mark :=
  match name? markers.description after with
  | some name =>
      some (.boundary ⟨name.lower, offset,
        offset + markers.tag.utf8Size + name.byteLength + markers.description.utf8Size⟩)
  | none => if isFree before || isFree after.head? then some .loose else none

def scan (markers : Markers) (before : Option Char) (offset : Nat) : Text → List Mark
  | [] => []
  | c :: rest =>
      let marks := scan markers (some c) (offset + c.utf8Size) rest
      if c = markers.tag ∧ before ≠ some markers.escape then
        (markAt markers before offset rest).toList ++ marks
      else marks

def marks (markers : Markers) (body : Text) : List Mark :=
  scan markers none 0 body

def boundaries (marks : List Mark) : List Boundary :=
  marks.filterMap fun
    | .boundary found => some found
    | .loose => none

def Mark.label (markers : Markers) : Mark → Text
  | .boundary found => markers.tag :: found.name
  | .loose => [markers.tag]

/-- Where the content of each boundary lies, in a body of a given length. -/
def contentRanges (length : Nat) : List Boundary → List ByteRange
  | [] => []
  | [last] => [⟨last.contentOffset, length⟩]
  | boundary :: next :: rest =>
      ⟨boundary.contentOffset, next.offset⟩ :: contentRanges length (next :: rest)

/-- Trims a content and drops the escapes in front of tag characters. -/
def clean (markers : Markers) (segment : Text) : Text :=
  segment.trim.replace [markers.escape, markers.tag] [markers.tag]

def leading (markers : Markers) (body : Text) (boundaries : List Boundary) : Text :=
  clean markers (body.slice ⟨0, (boundaries.head?.map Boundary.offset).getD body.byteLength⟩)

def fieldsOf (markers : Markers) (body : Text) (boundaries : List Boundary) :
    List (Text × Text) :=
  List.zip (boundaries.map Boundary.name)
    ((contentRanges body.byteLength boundaries).map fun range =>
      clean markers (body.slice range))

/-- The fields of a body: nothing before the first tag, no loose tag character, and a
content for every tag. -/
def tagBody (markers : Markers) (body : Text) : Except TagFault FieldMap :=
  let marks := marks markers body
  let boundaries := boundaries marks
  let leading := leading markers body boundaries
  let fields := fieldsOf markers body boundaries
  if (contentRanges body.byteLength boundaries).any fun range => range.stop < range.start then
    .error .overlap
  else if leading = [] ∧ .loose ∉ marks ∧ ∀ field ∈ fields, field.2 ≠ [] then
    .ok (FieldMap.ofList (fields.map fun (name, content) => Field.classify name content))
  else
    .error (.misaligned (marks.map (Mark.label markers))
      ((leading :: fields.map (·.2)).filter (· ≠ [])))

def tag (markers : Markers) (block : RawBlock) : Except TagFault FieldMap :=
  (tagBody markers block.body).map fun map =>
    block.snippets.foldl (fun map snippet => map.insert (.snippet snippet.index snippet.text))
      map

end Tagging
end Docblock
