import Docblock.Command.Basic

namespace Docblock.Main

def faultOfCode (code : UInt32) (description : String) : FileFault :=
  if code = 2 then .notFound
  else if code = 20 then .notDirectory
  else if code = 21 then .isDirectory
  else if code = 36 then .nameTooLong
  else .other code.toNat description.toList

def faultOf : IO.Error → FileFault
  | .noFileOrDirectory _ code description => faultOfCode code description
  | .permissionDenied _ code description => faultOfCode code description
  | .inappropriateType _ code description => faultOfCode code description
  | .invalidArgument _ code description => faultOfCode code description
  | .resourceExhausted _ code description => faultOfCode code description
  | .noSuchThing _ code description => faultOfCode code description
  | .alreadyExists _ code description => faultOfCode code description
  | .interrupted _ code description => faultOfCode code description
  | .otherError code description => faultOfCode code description
  | .resourceBusy code description => faultOfCode code description
  | .resourceVanished code description => faultOfCode code description
  | .unsupportedOperation code description => faultOfCode code description
  | .hardwareFault code description => faultOfCode code description
  | .unsatisfiedConstraints code description => faultOfCode code description
  | .illegalOperation code description => faultOfCode code description
  | .protocolError code description => faultOfCode code description
  | .timeExpired code description => faultOfCode code description
  | .unexpectedEof => .other 0 "unexpected end of file".toList
  | .userError description => .other 0 description.toList

def attempt {α : Type} (action : IO α) : IO (Except FileFault α) := do
  try return .ok (← action)
  catch error => return .error (faultOf error)

def kind? (path : Text) : IO (Option FileKind) := do
  match ← attempt (System.mkFilePath [String.ofList path]).metadata with
  | .error _ => return none
  | .ok metadata =>
      match metadata.type with
      | .dir => return some .directory
      | .file => return some .file
      | _ => return none

def entries (path : Text) : IO (Except FileFault (List Text)) :=
  attempt do
    let found ← (System.mkFilePath [String.ofList path]).readDir
    return found.toList.map fun entry => entry.fileName.toList

def read (path : Text) : IO (Except FileFault (List UInt8)) :=
  attempt do return (← IO.FS.readBinFile (String.ofList path)).toList

partial def readStream (stream : IO.FS.Stream) (found : ByteArray) : IO ByteArray := do
  let chunk ← stream.read 65536
  if chunk.isEmpty then return found else readStream stream (found ++ chunk)

def view (quiet : Bool) : FileView IO where
  kind? := kind?
  entries := entries
  read := read
  standardInput := attempt do return (← readStream (← IO.getStdin) .empty).toList
  warn warning := do
    unless quiet do
      (← IO.getStderr).putStrLn (String.ofList (" WARN ".toList ++ warning.message))

def write (path document : Text) : IO (Except FileFault Unit) :=
  attempt (IO.FS.writeBinFile (String.ofList path) (String.ofList document).toUTF8)

def respond (response : Response) : IO UInt32 := do
  (← IO.getStderr).putStr (String.ofList response.diagnostics)
  (← IO.getStdout).putStr (String.ofList response.output)
  return response.exitCode.toUInt32

end Docblock.Main

open Docblock in
def main (arguments : List String) : IO UInt32 := do
  match Arguments.parse (arguments.map String.toList) with
  | .error halt => Main.respond (Command.halted halt)
  | .ok arguments =>
      match ← Command.prepare (Main.view arguments.quiet) arguments with
      | .answer response => Main.respond response
      | .save path document notices success =>
          Main.respond (Command.saved path notices success (← Main.write path document))
