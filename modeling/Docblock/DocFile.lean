import Docblock.Tagging

namespace Docblock

structure SourceFile where
  name : Text
  text : Text
  deriving DecidableEq, Repr

structure DocFile where
  name : Text
  extension : Text
  blocks : List FieldMap
  deriving DecidableEq, Repr

namespace DocFile

def unifyLineEnds (text : Text) : Text :=
  text.replace ['\r', '\n'] ['\n']

/-- The documentation of a text.  A block at fault fails the whole file, and a block
without fields is left out. -/
def parse (markers : Markers) (language : Language) (name text : Text) :
    Except TagFault DocFile := do
  let maps ← (RawBlock.all language markers (unifyLineEnds text)).mapM (Tagging.tag markers)
  .ok ⟨name, language.extension, maps.filter fun map => map.fields ≠ []⟩

end DocFile
end Docblock
