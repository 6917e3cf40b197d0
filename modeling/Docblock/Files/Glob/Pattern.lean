import Docblock.Text.Basic

namespace Docblock.Glob

/-- Characters that a bracket expression lists. -/
structure CharSet where
  ranges : List (Char × Char)
  deriving DecidableEq, Repr

inductive Piece where
  | char (c : Char)
  | anyChar
  | anyText
  | anyDepth
  | within (set : CharSet)
  | outside (set : CharSet)
  deriving DecidableEq, Repr

inductive FaultKind where
  | wildcards
  | depthWildcard
  | range
  deriving DecidableEq, Repr

structure Fault where
  position : Nat
  kind : FaultKind
  deriving DecidableEq, Repr

namespace Fault

def description (fault : Fault) : Text :=
  match fault.kind with
  | .wildcards => "wildcards are either regular `*` or recursive `**`".toList
  | .depthWildcard => "recursive wildcards must form a single path component".toList
  | .range => "invalid range pattern".toList

def message (fault : Fault) : Text :=
  "Pattern syntax error near position ".toList ++ Nat.toDigits 10 fault.position ++
    ": ".toList ++ fault.description

end Fault

namespace CharSet

def ofText : Text → CharSet
  | first :: '-' :: last :: rest => ⟨(first, last) :: (ofText rest).ranges⟩
  | c :: rest => ⟨(c, c) :: (ofText rest).ranges⟩
  | [] => ⟨[]⟩

def contains (set : CharSet) (c : Char) : Bool :=
  set.ranges.any fun (first, last) => first ≤ c && c ≤ last

end CharSet

/-- The inside of brackets and what follows them; the first character always belongs to the
inside. -/
def bracketed : Text → Option (Text × Text)
  | [] => none
  | first :: rest =>
      match rest.dropWhile (· ≠ ']') with
      | [] => none
      | _ :: after => some (first :: rest.takeWhile (· ≠ ']'), after)

/-- The bracket expression whose opening bracket has been read. -/
def bracketPiece (text : Text) : Option (Piece × Text) :=
  match text with
  | '!' :: negated =>
      (bracketed negated).map fun (inside, after) => (.outside (.ofText inside), after)
  | _ => (bracketed text).map fun (inside, after) => (.within (.ofText inside), after)

/-- The pieces of a text at a position, with the character before it.  The bound is the
number of characters that are left. -/
def readPieces : Nat → Nat → Option Char → Text → Except Fault (List Piece)
  | _, _, _, [] => .ok []
  | 0, _, _, _ => .ok []
  | bound + 1, position, before, c :: rest =>
      if c = '?' then do
        let pieces ← readPieces bound (position + 1) (some c) rest
        .ok (.anyChar :: pieces)
      else if c = '*' then
        match rest with
        | '*' :: '*' :: _ => .error ⟨position + 2, .wildcards⟩
        | '*' :: after =>
            if before.all (· = '/') then
              match after with
              | [] => .ok [.anyDepth]
              | '/' :: after => do
                  let pieces ← readPieces bound (position + 3) (some '/') after
                  .ok (.anyDepth :: pieces)
              | _ => .error ⟨position + 2, .depthWildcard⟩
            else .error ⟨position - 1, .depthWildcard⟩
        | _ => do
            let pieces ← readPieces bound (position + 1) (some c) rest
            .ok (.anyText :: pieces)
      else if c = '[' then
        match bracketPiece rest with
        | none => .error ⟨position, .range⟩
        | some (piece, after) => do
            let pieces ←
              readPieces bound (position + 1 + (rest.length - after.length)) (some ']') after
            .ok (piece :: pieces)
      else do
        let pieces ← readPieces bound (position + 1) (some c) rest
        .ok (.char c :: pieces)

def pieces (text : Text) : Except Fault (List Piece) :=
  readPieces text.length 0 none text

def suffixes : Text → List Text
  | [] => [[]]
  | c :: rest => (c :: rest) :: suffixes rest

def Piece.accepts : Piece → Char → Bool
  | .char expected, c => c = expected
  | .anyChar, _ => true
  | .within set, c => set.contains c
  | .outside set, c => !set.contains c
  | .anyText, _ => false
  | .anyDepth, _ => false

def matchesName : List Piece → Text → Bool
  | [], name => name.isEmpty
  | .anyText :: pieces, name => (suffixes name).any (matchesName pieces)
  | _ :: _, [] => false
  | piece :: pieces, c :: rest => piece.accepts c && matchesName pieces rest

/-- The name that pieces without a wildcard spell. -/
def literal? (pieces : List Piece) : Option Text :=
  pieces.mapM fun
    | .char c => some c
    | _ => none

end Docblock.Glob
