import Docblock.Text.Basic

namespace Docblock

structure Markers where
  openBlock : Text
  closeBlock : Text
  codeStart : Text
  codeEnd : Text
  tag : Char
  description : Char
  escape : Char
  deriving DecidableEq, Repr

namespace Markers

def standard : Markers where
  openBlock := "#@".toList
  closeBlock := "@#".toList
  codeStart := "#@codestart@#".toList
  codeEnd := "#@codeend@#".toList
  tag := '@'
  description := ':'
  escape := '\\'

end Markers
end Docblock
