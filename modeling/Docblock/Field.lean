import Docblock.Text.Case.Basic

namespace Docblock

/-- Tags that have a place of their own in the documentation. -/
inductive ReservedTag where
  | name
  | brief
  | notes
  | inputs
  | outputs
  deriving DecidableEq, Repr

namespace ReservedTag

def toText : ReservedTag → Text
  | .name => "name".toList
  | .brief => "brief".toList
  | .notes => "notes".toList
  | .inputs => "inputs".toList
  | .outputs => "outputs".toList

/-- The tag with a name in lowercase; notes may be written in the singular. -/
def ofName? (name : Text) : Option ReservedTag :=
  if name = "name".toList then some .name
  else if name = "brief".toList then some .brief
  else if name = "notes".toList ∨ name = "note".toList then some .notes
  else if name = "inputs".toList then some .inputs
  else if name = "outputs".toList then some .outputs
  else none

end ReservedTag

inductive Field where
  | reserved (tag : ReservedTag) (content : Text)
  | custom (name content : Text)
  | snippet (index : Nat) (content : Text)
  deriving DecidableEq, Repr

/-- What identifies a field in its block. -/
inductive Slot where
  | reserved (tag : ReservedTag)
  | custom (name : Text)
  | snippet (index : Nat)
  deriving DecidableEq, Repr

namespace Slot

/-- The slot that a name in lowercase stands for when it is written as a tag. -/
def ofName (name : Text) : Slot :=
  match ReservedTag.ofName? name with
  | some tag => .reserved tag
  | none => .custom name

end Slot

namespace Field

/-- The field of a tag written with a name in lowercase; it is never a snippet. -/
def classify (name content : Text) : Field :=
  match ReservedTag.ofName? name with
  | some tag => .reserved tag content
  | none => .custom name content

def slot : Field → Slot
  | .reserved tag _ => .reserved tag
  | .custom name _ => .custom name
  | .snippet index _ => .snippet index

def content : Field → Text
  | .reserved _ content => content
  | .custom _ content => content
  | .snippet _ content => content

theorem content_classify (name content : Text) :
    (classify name content).content = content := by
  unfold classify
  cases ReservedTag.ofName? name <;> rfl

end Field

/-- The fields of one block.  A slot keeps the place where it was first filled. -/
structure FieldMap where
  fields : List Field
  deriving DecidableEq, Repr

namespace FieldMap

def empty : FieldMap :=
  ⟨[]⟩

/-- Puts a field in the place of the one with its slot, or behind all others. -/
def put (field : Field) : List Field → List Field
  | [] => [field]
  | other :: rest =>
      if other.slot = field.slot then field :: rest else other :: put field rest

def insert (map : FieldMap) (field : Field) : FieldMap :=
  ⟨put field map.fields⟩

def ofList (fields : List Field) : FieldMap :=
  fields.foldl insert empty

def at? (map : FieldMap) (slot : Slot) : Option Text :=
  (map.fields.find? fun field => field.slot = slot).map Field.content

/-- The content of a tag, whatever the case of its name. -/
def get? (map : FieldMap) (name : Text) : Option Text :=
  map.at? (Slot.ofName name.lower)

def reserved? (map : FieldMap) (tag : ReservedTag) : Option Text :=
  map.fields.findSome? fun
    | .reserved other content => if other = tag then some content else none
    | _ => none

def custom (map : FieldMap) : List (Text × Text) :=
  map.fields.filterMap fun
    | .custom name content => some (name, content)
    | _ => none

/-- Indices and contents of the snippets, by ascending index. -/
def snippets (map : FieldMap) : List (Nat × Text) :=
  (map.fields.filterMap fun
    | .snippet index content => some (index, content)
    | _ => none).mergeSort fun left right => left.1 ≤ right.1

def size (map : FieldMap) : Nat :=
  map.fields.length

end FieldMap
end Docblock
