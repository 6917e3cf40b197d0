import Docblock.Json.Basic

namespace Docblock.Json

/-! The indented form: two spaces a level, one item or member a line. -/

def escape (c : Char) : Text :=
  if c = '"' then ['\\', '"']
  else if c = '\\' then ['\\', '\\']
  else if c = '\n' then ['\\', 'n']
  else if c = '\r' then ['\\', 'r']
  else if c = '\t' then ['\\', 't']
  else if c = '\x08' then ['\\', 'b']
  else if c = '\x0c' then ['\\', 'f']
  else if c.toNat < 0x20 then
    ['\\', 'u', '0', '0', Nat.digitChar (c.toNat / 16), Nat.digitChar (c.toNat % 16)]
  else [c]

def quote (text : Text) : Text :=
  ['"'] ++ text.flatMap escape ++ ['"']

/-- A literal without a text is written as one that has none. -/
def literal : Option Text → Text
  | some text => quote text
  | none => "\"\\ud800\"".toList

def indentation (depth : Nat) : Text :=
  List.replicate (2 * depth) ' '

mutual

def pretty (depth : Nat) : Json → Text
  | .null => "null".toList
  | .bool true => "true".toList
  | .bool false => "false".toList
  | .number spelling => spelling
  | .string text => literal text
  | .array [] => ['[', ']']
  | .array (item :: items) =>
      ['[', '\n'] ++ indentation (depth + 1) ++ pretty (depth + 1) item ++
        prettyItems depth items
  | .object [] => ['{', '}']
  | .object (member :: members) =>
      ['{', '\n'] ++ indentation (depth + 1) ++ prettyMember (depth + 1) member ++
        prettyMembers depth members

/-- What follows an item: the others, each after a comma, and the closing bracket. -/
def prettyItems (depth : Nat) : List Json → Text
  | [] => ['\n'] ++ indentation depth ++ [']']
  | item :: items =>
      [',', '\n'] ++ indentation (depth + 1) ++ pretty (depth + 1) item ++
        prettyItems depth items

def prettyMember (depth : Nat) : Option Text × Json → Text
  | (name, value) => literal name ++ [':', ' '] ++ pretty depth value

def prettyMembers (depth : Nat) : List (Option Text × Json) → Text
  | [] => ['\n'] ++ indentation depth ++ ['}']
  | member :: members =>
      [',', '\n'] ++ indentation (depth + 1) ++ prettyMember (depth + 1) member ++
        prettyMembers depth members

end

end Docblock.Json
