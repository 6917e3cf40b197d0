import Docblock.Text.Basic
import Docblock.Text.Case.Context
import Docblock.Text.Case.Mapping

namespace Docblock

/-! Full case conversion.  A capital sigma is lowered to its final form where a word
ends, and some characters change into several. -/

namespace Text

/-- Whether the first character that is not case-ignorable has case. -/
def meetsCased (text : Text) : Bool :=
  (text.dropWhile isCaseIgnorable).head?.any isCased

/-- The lowercase form of one character between the reversed text before it and the
text after it. -/
def lowerIn (before : Text) (c : Char) (after : Text) : Text :=
  if c = 'Σ' then
    if meetsCased before && !meetsCased after then ['ς'] else ['σ']
  else if c = 'İ' then ['i', '\u0307']
  else [mapCase lowerRows c]

def lowerFrom (before : Text) : Text → Text
  | [] => []
  | c :: rest => lowerIn before c rest ++ lowerFrom (c :: before) rest

def lower (text : Text) : Text :=
  lowerFrom [] text

def upperOf (c : Char) : Text :=
  match upperExpansions.lookup c.toNat with
  | some codes => codes.map Char.ofNat
  | none => [mapCase upperRows c]

def capitalize : Text → Text
  | [] => []
  | c :: rest => upperOf c ++ rest

end Text
end Docblock
