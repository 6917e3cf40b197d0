import Docblock.Json.Basic

namespace Docblock.Json

/-! Each reader takes a value off the front of a text and returns it with the rest. -/

def isSpace (c : Char) : Bool :=
  c = ' ' || c = '\t' || c = '\n' || c = '\r'

def skipSpace (text : Text) : Text :=
  text.dropWhile isSpace

def hexDigit? (c : Char) : Option Nat :=
  if '0' ≤ c ∧ c ≤ '9' then some (c.toNat - '0'.toNat)
  else if 'a' ≤ c ∧ c ≤ 'f' then some (c.toNat - 'a'.toNat + 10)
  else if 'A' ≤ c ∧ c ≤ 'F' then some (c.toNat - 'A'.toNat + 10)
  else none

def hexCode? (a b c d : Char) : Option Nat := do
  let a ← hexDigit? a
  let b ← hexDigit? b
  let c ← hexDigit? c
  let d ← hexDigit? d
  some (((a * 16 + b) * 16 + c) * 16 + d)

def unescape? (c : Char) : Option Char :=
  if c = '"' ∨ c = '\\' ∨ c = '/' then some c
  else if c = 'b' then some '\x08'
  else if c = 'f' then some '\x0c'
  else if c = 'n' then some '\n'
  else if c = 'r' then some '\r'
  else if c = 't' then some '\t'
  else none

/-- The units of a literal whose opening quote has been read. -/
def readUnits : Text → Option (List Nat × Text)
  | [] => none
  | '"' :: rest => some ([], rest)
  | '\\' :: 'u' :: a :: b :: c :: d :: rest => do
      let code ← hexCode? a b c d
      let (units, rest) ← readUnits rest
      some (code :: units, rest)
  | '\\' :: c :: rest => do
      let unescaped ← unescape? c
      let (units, rest) ← readUnits rest
      some (unescaped.toNat :: units, rest)
  | c :: rest =>
      if c.toNat < 0x20 ∨ c = '\\' then none
      else do
        let (units, rest) ← readUnits rest
        some (c.toNat :: units, rest)

def isHighHalf (unit : Nat) : Bool :=
  0xd800 ≤ unit && unit < 0xdc00

def isLowHalf (unit : Nat) : Bool :=
  0xdc00 ≤ unit && unit < 0xe000

/-- The text that code units spell, if no half of a pair stands alone. -/
def textOfUnits : List Nat → Option Text
  | [] => some []
  | [unit] =>
      if isHighHalf unit || isLowHalf unit then none else some [Char.ofNat unit]
  | unit :: next :: rest =>
      if isHighHalf unit && isLowHalf next then
        (textOfUnits rest).map
          (Char.ofNat (0x10000 + (unit - 0xd800) * 0x400 + (next - 0xdc00)) :: ·)
      else if isHighHalf unit || isLowHalf unit then none
      else (textOfUnits (next :: rest)).map (Char.ofNat unit :: ·)

def readLiteral (text : Text) : Option (Option Text × Text) := do
  let (units, rest) ← readUnits text
  some (textOfUnits units, rest)

def readDigits (text : Text) : Option (Text × Text) :=
  match text.takeWhile Char.isDigit with
  | [] => none
  | digits => some (digits, text.dropWhile Char.isDigit)

def readSign : Text → Text × Text
  | '-' :: rest => (['-'], rest)
  | text => ([], text)

/-- Digits without a leading zero, unless there is only one. -/
def readWhole (text : Text) : Option (Text × Text) := do
  let (digits, rest) ← readDigits text
  if digits.head? = some '0' ∧ digits ≠ ['0'] then none else some (digits, rest)

def readFraction : Text → Option (Text × Text)
  | '.' :: rest => do
      let (digits, rest) ← readDigits rest
      some ('.' :: digits, rest)
  | text => some ([], text)

def readExponent : Text → Option (Text × Text)
  | [] => some ([], [])
  | mark :: rest =>
      if mark = 'e' ∨ mark = 'E' then
        match rest with
        | sign :: digits =>
            if sign = '+' ∨ sign = '-' then do
              let (digits, rest) ← readDigits digits
              some (mark :: sign :: digits, rest)
            else do
              let (digits, rest) ← readDigits rest
              some (mark :: digits, rest)
        | [] => none
      else some ([], mark :: rest)

def readNumber (text : Text) : Option (Text × Text) := do
  let (sign, rest) := readSign text
  let (whole, rest) ← readWhole rest
  let (fraction, rest) ← readFraction rest
  let (exponent, rest) ← readExponent rest
  some (sign ++ whole ++ fraction ++ exponent, rest)

/-! Values.  The first argument bounds the depth of recursion; twice the length of the
text is enough, since of two nested steps one takes a character. -/

mutual

def readValue : Nat → Text → Option (Json × Text)
  | 0, _ => none
  | bound + 1, text =>
      match skipSpace text with
      | '[' :: rest =>
          match skipSpace rest with
          | ']' :: rest => some (.array [], rest)
          | rest => do
              let (items, rest) ← readItems bound rest
              some (.array items, rest)
      | '{' :: rest =>
          match skipSpace rest with
          | '}' :: rest => some (.object [], rest)
          | rest => do
              let (members, rest) ← readMembers bound rest
              some (.object members, rest)
      | '"' :: rest => do
          let (text, rest) ← readLiteral rest
          some (.string text, rest)
      | 'n' :: 'u' :: 'l' :: 'l' :: rest => some (.null, rest)
      | 't' :: 'r' :: 'u' :: 'e' :: rest => some (.bool true, rest)
      | 'f' :: 'a' :: 'l' :: 's' :: 'e' :: rest => some (.bool false, rest)
      | rest => do
          let (spelling, rest) ← readNumber rest
          some (.number spelling, rest)

def readItems : Nat → Text → Option (List Json × Text)
  | 0, _ => none
  | bound + 1, text => do
      let (item, rest) ← readValue bound text
      match skipSpace rest with
      | ',' :: rest => do
          let (items, rest) ← readItems bound rest
          some (item :: items, rest)
      | ']' :: rest => some ([item], rest)
      | _ => none

def readMembers : Nat → Text → Option (List (Option Text × Json) × Text)
  | 0, _ => none
  | bound + 1, text =>
      match skipSpace text with
      | '"' :: rest => do
          let (name, rest) ← readLiteral rest
          match skipSpace rest with
          | ':' :: rest => do
              let (value, rest) ← readValue bound rest
              match skipSpace rest with
              | ',' :: rest => do
                  let (members, rest) ← readMembers bound rest
                  some ((name, value) :: members, rest)
              | '}' :: rest => some ([(name, value)], rest)
              | _ => none
          | _ => none
      | _ => none

end

def read (text : Text) : Option Json := do
  let (value, rest) ← readValue (2 * text.length + 1) text
  if skipSpace rest = [] then some value else none

end Docblock.Json
