import Docblock.Text.Basic

namespace Docblock

/-! Texts as bytes.  Reading never fails: every longest run of bytes that begins a
character and cannot be completed becomes one replacement character. -/

/-- A character of which some bytes are still missing.  The next byte must lie between
`low` and `high`; the ones after it are any continuation bytes. -/
structure PendingChar where
  missing : Nat
  code : Nat
  low : UInt8
  high : UInt8
  deriving DecidableEq, Repr

def replacementChar : Char := '\ufffd'

def firstByte (byte : UInt8) : Char ⊕ PendingChar :=
  if byte < 0x80 then .inl (Char.ofNat byte.toNat)
  else if byte < 0xc2 then .inl replacementChar
  else if byte < 0xe0 then .inr ⟨1, byte.toNat - 0xc0, 0x80, 0xbf⟩
  else if byte < 0xf0 then
    .inr ⟨2, byte.toNat - 0xe0, if byte = 0xe0 then 0xa0 else 0x80,
      if byte = 0xed then 0x9f else 0xbf⟩
  else if byte < 0xf5 then
    .inr ⟨3, byte.toNat - 0xf0, if byte = 0xf0 then 0x90 else 0x80,
      if byte = 0xf4 then 0x8f else 0xbf⟩
  else .inl replacementChar

/-- A further byte of a character, or `none` when it cannot stand there. -/
def PendingChar.next? (pending : PendingChar) (byte : UInt8) : Option (Char ⊕ PendingChar) :=
  if pending.low ≤ byte ∧ byte ≤ pending.high then
    let code := pending.code * 64 + (byte.toNat - 0x80)
    if pending.missing ≤ 1 then some (.inl (Char.ofNat code))
    else some (.inr ⟨pending.missing - 1, code, 0x80, 0xbf⟩)
  else none

namespace Text

def encode (text : Text) : List UInt8 :=
  text.flatMap String.utf8EncodeChar

def decodeFrom : Option PendingChar → List UInt8 → Text
  | none, [] => []
  | some _, [] => [replacementChar]
  | none, byte :: rest =>
      match firstByte byte with
      | .inl c => c :: decodeFrom none rest
      | .inr pending => decodeFrom (some pending) rest
  | some pending, byte :: rest =>
      match pending.next? byte with
      | some (.inl c) => c :: decodeFrom none rest
      | some (.inr further) => decodeFrom (some further) rest
      | none =>
          replacementChar ::
            match firstByte byte with
            | .inl c => c :: decodeFrom none rest
            | .inr further => decodeFrom (some further) rest

def decode (bytes : List UInt8) : Text :=
  decodeFrom none bytes

/-- The text with exactly these bytes. -/
def decode? (bytes : List UInt8) : Option Text :=
  let text := decode bytes
  if text.encode = bytes then some text else none

end Text
end Docblock
