import Docblock.Files.Fault
import Docblock.Files.Glob.Pattern
import Docblock.Language.Description
import Docblock.Tagging

namespace Docblock

inductive Error where
  | unsupportedExtension (file extension : Text)
  | malformed (file : Text) (fault : TagFault)
  | fileSystem (path : Text) (fault : FileFault)
  | notDescription (path : Text)
  | invalidLanguage (extension : Text) (fault : Language.Fault)
  | invalidPattern (pattern : Text) (fault : Glob.Fault)
  | unknownFormat (name : Text)
  deriving DecidableEq, Repr

namespace Error

def quoted (text : Text) : Text :=
  '\x27' :: text ++ ['\x27']

def message : Error → Text
  | .unsupportedExtension file extension =>
      "unsupported file type ".toList ++ quoted extension ++ " for ".toList ++ file
  | .malformed file fault =>
      "malformed documentation block in ".toList ++ file ++ ": ".toList ++ fault.message
  | .fileSystem path fault =>
      "failed to read ".toList ++ quoted path ++ ": ".toList ++ fault.message
  | .notDescription path => "invalid languages file ".toList ++ quoted path
  | .invalidLanguage extension fault =>
      "invalid delimiters for ".toList ++ quoted extension ++ ": ".toList ++ fault.reason
  | .invalidPattern pattern fault =>
      "invalid glob pattern ".toList ++ quoted pattern ++ ": ".toList ++ fault.message
  | .unknownFormat name =>
      "unknown format: ".toList ++ name ++ ". Use markdown or json".toList

/-- What an error goes back to, one after the other. -/
def causes : Error → List Text
  | .malformed _ fault => [fault.message]
  | .fileSystem _ fault => [fault.message]
  | .invalidPattern _ fault => [fault.message]
  | _ => []

end Error

/-- What a command goes on after, with a word in the log. -/
inductive Warning where
  | nothingMatched (pattern : Text)
  | notText (name : Text)
  | skipped (file : Text) (error : Error)
  deriving DecidableEq, Repr

def Warning.message : Warning → Text
  | .nothingMatched pattern => "no files matched: ".toList ++ pattern
  | .notText name => name ++ " is not valid UTF-8; invalid bytes replaced".toList
  | .skipped file error =>
      "skipping malformed file file=".toList ++ file ++ " error=".toList ++ error.message

end Docblock
