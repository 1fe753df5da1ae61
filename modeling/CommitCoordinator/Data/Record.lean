import CommitCoordinator.Data.Codec

/-!
# Records

A record is written as a map from field names in their declared order. It is read from a map in
any order, each field at most once, or from a list that holds the fields in their order. A field
with a default may be missing.
-/

namespace CommitCoordinator.Data

/-- A named member of a record. -/
structure Field (α : Type) where
  name : String
  codec : Codec α
  /-- Stands in for a missing field. -/
  default? : Option α

/-- A field that may not be missing. -/
def Field.required {α : Type} (name : String) (codec : Codec α) : Field α :=
  ⟨name, codec, none⟩

/-- A field with a value of its own when it is missing. -/
def Field.defaulted {α : Type} (name : String) (codec : Codec α) (value : α) : Field α :=
  ⟨name, codec, some value⟩

/-- Fields of the given types in their declared order. -/
inductive Fields : List Type → Type 1 where
  | nil : Fields []
  | cons {α : Type} {αs : List Type} (field : Field α) (rest : Fields αs) : Fields (α :: αs)

/-- One value of each type. -/
@[reducible] def Tuple : List Type → Type
  | [] => Unit
  | α :: αs => α × Tuple αs

/-- A value of each type that has been read so far. -/
@[reducible] def Slots : List Type → Type
  | [] => Unit
  | α :: αs => Option α × Slots αs

namespace Fields

def names {αs : List Type} : Fields αs → List String
  | .nil => []
  | .cons field rest => field.name :: rest.names

def emptySlots {αs : List Type} : Fields αs → Slots αs
  | .nil => ()
  | .cons _ rest => (none, rest.emptySlots)

def encode {αs : List Type} : Fields αs → Tuple αs → List (String × Value)
  | .nil, () => []
  | .cons field rest, (value, values) =>
    (field.name, field.codec.encode value) :: rest.encode values

/-- Reads a member into the slot of the field of a name; the result is absent for an unknown
name. -/
def accept {αs : List Type} (name : String) (member : Value × Value) :
    Fields αs → Slots αs → Except Complaint (Option (Slots αs))
  | .nil, () => .ok none
  | .cons field rest, (slot, slots) =>
    if field.name = name then
      match slot with
      | some _ => complain (.duplicateField name)
      | none => do
        let decoded ← decodeWithin field.codec.decode member.1 member.2
        return some (some decoded, slots)
    else do
      return (← rest.accept name member slots).map fun slots ↦ (slot, slots)

/-- Fills the slots that are still empty with defaults. -/
def complete {αs : List Type} : Fields αs → Slots αs → Except Complaint (Tuple αs)
  | .nil, () => .ok ()
  | .cons field rest, (slot, slots) => do
    match slot.or field.default? with
    | some value => return (value, ← rest.complete slots)
    | none => complain (.missingField field.name)

/-- Reads the fields from the items of a list; `position` counts those read before. -/
def ofItems {αs : List Type} (shortage : Nat → Problem) :
    (position : Nat) → Fields αs → List Value → Except Complaint (Tuple αs × List Value)
  | _, .nil, items => .ok ((), items)
  | position, .cons field rest, item :: items => do
    let value ← field.codec.decode item
    let (values, items) ← rest.ofItems shortage (position + 1) items
    return ((value, values), items)
  | position, .cons field rest, [] =>
    match field.default? with
    | some value => do
      let (values, items) ← rest.ofItems shortage (position + 1) []
      return ((value, values), items)
    | none => complain (shortage position)

end Fields

/-- A record type as its name, its fields and what happens to names that are no field. -/
structure RecordFormat (αs : List Type) where
  title : String
  fields : Fields αs
  refusesUnknown : Bool

/-- A number of elements. -/
def countOf (n : Nat) : String :=
  if n = 1 then "1 element" else s!"{n} elements"

namespace RecordFormat

variable {αs : List Type}

/-- Reads a member into the slots. -/
def acceptMember (format : RecordFormat αs) (slots : Slots αs) (member : Value × Value) :
    Except Complaint (Slots αs) := do
  let name ← decodeText "field identifier" member.1
  match ← format.fields.accept name member slots with
  | some slots => return slots
  | none =>
    if format.refusesUnknown then complain (.unknownField name format.fields.names)
    else
      skip member.2
      return slots

def decodeMembers (format : RecordFormat αs) (members : List (Value × Value)) :
    Except Complaint (Tuple αs) := do
  let slots ← members.foldlM format.acceptMember format.fields.emptySlots
  format.fields.complete slots

/-- Reads the fields in order and refuses further items. -/
def decodeItems (format : RecordFormat αs) (form : ListForm) (items : List Value) :
    Except Complaint (Tuple αs) := do
  let size := format.fields.names.length
  let shortage (position : Nat) : Problem :=
    .invalidLength position (format.title ++ " with " ++ countOf size)
  let (values, rest) ← format.fields.ofItems shortage 0 items
  if rest.isEmpty then return values
  else if form = .held then
    complain (.invalidLength items.length (countOf size ++ " in sequence"))
  else complain .malformed

def decode (format : RecordFormat αs) : Value → Except Complaint (Tuple αs)
  | .list .sequence items => mismatch format.title (.list .sequence items)
  | .list form items => format.decodeItems form items
  | .tagged value => format.decode value
  | value => do format.decodeMembers (← membersOf format.title value)

end RecordFormat

/-- A record codec from the correspondence between a type and its field values. -/
def Codec.record {ρ : Type} {αs : List Type} (format : RecordFormat αs) (toTuple : ρ → Tuple αs)
    (ofTuple : Tuple αs → ρ) : Codec ρ where
  encode value := .ofMembers (format.fields.encode (toTuple value))
  decode value := ofTuple <$> format.decode value

/-- The title of a record type of a name. -/
def recordTitle (name : String) : String :=
  "struct " ++ name

end CommitCoordinator.Data
