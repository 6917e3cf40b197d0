import Docblock.Text.Basic

namespace Docblock

/-- A JSON value.  Numbers keep their spelling and objects keep their members in order,
repeated names included.  A string literal has no text when it names one half of a
surrogate pair without the other. -/
inductive Json where
  | null
  | bool (value : Bool)
  | number (spelling : Text)
  | string (text : Option Text)
  | array (items : List Json)
  | object (members : List (Option Text × Json))

namespace Json

def ofText (text : Text) : Json :=
  .string (some text)

def ofNat (value : Nat) : Json :=
  .number (Nat.toDigits 10 value)

/-- An object with distinct names known beforehand. -/
def record (members : List (Text × Json)) : Json :=
  .object (members.map fun (name, value) => (some name, value))

def valuesOf (name : Text) (members : List (Option Text × Json)) : List Json :=
  members.filterMap fun (key, value) => if key = some name then some value else none

def text? : Json → Option Text
  | .string text => text
  | _ => none

end Json
end Docblock
