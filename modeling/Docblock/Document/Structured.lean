import Docblock.DocFile
import Docblock.Json.Writer

namespace Docblock.Structured

/-! The documentation of files as JSON: one object a file, with the fields of its blocks
by kind. -/

def fieldToJson : Field → Json
  | .reserved tag content =>
      .record [("kind".toList, .ofText "reserved".toList), ("tag".toList, .ofText tag.toText),
        ("content".toList, .ofText content)]
  | .custom name content =>
      .record [("kind".toList, .ofText "custom".toList), ("name".toList, .ofText name),
        ("content".toList, .ofText content)]
  | .snippet index content =>
      .record [("kind".toList, .ofText "snippet".toList), ("index".toList, .ofNat index),
        ("content".toList, .ofText content)]

def blockToJson (block : FieldMap) : Json :=
  .array (block.fields.map fieldToJson)

def fileToJson (file : DocFile) : Json :=
  .record [("name".toList, .ofText file.name), ("extension".toList, .ofText file.extension),
    ("blocks".toList, .array (file.blocks.map blockToJson))]

def renderFile (file : DocFile) : Text :=
  (fileToJson file).pretty 0

def assemble (sections : List Text) : Text :=
  ['[', '\n'] ++ List.intercalate [',', '\n'] sections ++ ['\n', ']', '\n']

end Docblock.Structured
