import CommitCoordinator.Collection.Sequenced
import CommitCoordinator.Collection.Sorted
import CommitCoordinator.Data.Loose
import CommitCoordinator.Uuid

/-!
# Reading and writing typed data

A codec pairs the written form of a type with its reader. Readers look at a value from the front
to the back and report the first problem, so a value that breaks off fails only where it breaks.
-/

namespace CommitCoordinator.Data

/-- A way to write values of a type as data and to read them back. -/
structure Codec (α : Type) where
  encode : α → Value
  decode : Value → Except Complaint α

/-- What stands at a place where something else was expected. -/
def found : Value → Except Problem Found
  | .null => .ok .null
  | .bool value => .ok (.bool value)
  | .int value => .ok (.int value)
  | .float => .ok .float
  | .string text => .ok (.string text)
  | .list _ _ => .ok .sequence
  | .map _ => .ok .map
  | .tagged value => found value
  | .unreadable => .error .malformed
  | .broken => .error .malformed
  | .loose text style tag => do
    match ← settle text style tag with
    | .null => .ok .null
    | .bool value => .ok (.bool value)
    | .int value => .ok (.int value)
    | .float => .ok .float
    | _ => .ok (.string text)

/-- Fails because something else was expected. -/
def mismatch {α : Type} (expected : String) (value : Value) : Except Complaint α :=
  match found value with
  | .ok found => complain (.invalidType found expected)
  | .error problem => complain problem

/-- A value that the reader passes over has to be whole. -/
def skip (value : Value) : Except Complaint Unit :=
  if value.isIntact then .ok () else complain .malformed

/-! ## Scalars -/

def decodeText (expected : String) : Value → Except Complaint String
  | .string text => .ok text
  | .loose text _ _ => .ok text
  | .tagged value => decodeText expected value
  | value => mismatch expected value

def Codec.text : Codec String where
  encode := .string
  decode := decodeText "a string"

def decodeBool : Value → Except Complaint Bool
  | .bool value => .ok value
  | .loose text style tag =>
    match spelledBool? text with
    | some value =>
      if style = .plain ∨ style = .literal ∧ tag = some .bool then .ok value
      else mismatch "a boolean" (.loose text style tag)
    | none => mismatch "a boolean" (.loose text style tag)
  | .tagged value => decodeBool value
  | value => mismatch "a boolean" value

def Codec.bool : Codec Bool where
  encode := .bool
  decode := decodeBool

/-- Reads an integer within bounds. -/
def decodeInt {α : Type} (expected : String) (lower upper : Int) (ofInt : Int → α) :
    Value → Except Complaint α
  | .int value =>
    if lower ≤ value ∧ value < upper then .ok (ofInt value)
    else complain (.invalidValue (.int value) expected)
  | value => mismatch expected value

def Codec.int64 : Codec Int64 where
  encode value := .int value.toInt
  decode := decodeInt "i64" Int64.minValue.toInt (Int64.maxValue.toInt + 1) Int64.ofInt

def Codec.uint32 : Codec UInt32 where
  encode value := .int value.toNat
  decode := decodeInt "u32" 0 UInt32.size fun value ↦ UInt32.ofNat value.toNat

def Codec.uint64 : Codec UInt64 where
  encode value := .int value.toNat
  decode := decodeInt "u64" 0 UInt64.size fun value ↦ UInt64.ofNat value.toNat

def uuidOfText (text : String) : Except Complaint Uuid :=
  match Uuid.parse? text with
  | some id => .ok id
  | none => complain .badUuid

def Codec.uuid : Codec Uuid where
  encode id := .string id.hyphenated
  decode value := do uuidOfText (← decodeText "a formatted UUID string" value)

/-- Reads nothing but the absent value. -/
def decodeUnit : Value → Except Complaint Unit
  | .null => .ok ()
  | value => mismatch "unit" value

/-! ## Choices between names -/

/-- Finds the meaning of a name. -/
def variantOf {α : Type} (variants : List (String × α)) (name : String) : Except Complaint α :=
  match variants.find? fun variant ↦ variant.1 = name with
  | some variant => .ok variant.2
  | none => complain (.unknownVariant name (variants.map Prod.fst))

/-- A choice is its name, or a map from its name to the absent value. -/
def decodeVariant {α : Type} (variants : List (String × α)) : Value → Except Complaint α
  | .string name => variantOf variants name
  | .map [(key, value)] => do
    let variant ← variantOf variants (← decodeText "variant identifier" key)
    decodeUnit value
    return variant
  | .map ((key, value) :: _) => do
    let _ ← variantOf variants (← decodeText "variant identifier" key)
    decodeUnit value
    complain .malformed
  | _ => complain .malformed

def Codec.variant {α : Type} (variants : List (String × α)) (name : α → String) : Codec α where
  encode value := .string (name value)
  decode := decodeVariant variants

/-! ## Optional values, lists and maps -/

def decodeOptional {α : Type} (decode : Value → Except Complaint α) :
    Value → Except Complaint (Option α)
  | .null => .ok none
  | .loose text .plain none =>
    if text.isEmpty || spellsNull text then .ok none
    else some <$> decode (.loose text .plain none)
  | .loose text .plain (some .null) =>
    if spellsNull text then .ok none
    else complain (.invalidValue (.string text) "null")
  | value => some <$> decode value

def Codec.optional {α : Type} (codec : Codec α) : Codec (Option α) where
  encode
    | some value => codec.encode value
    | none => .null
  decode := decodeOptional codec.decode

/-- The items of a list; an unquoted scalar without text is an empty one. -/
def itemsOf (expected : String) : Value → Except Complaint (List Value)
  | .list _ items => .ok items
  | .loose "" .plain _ => .ok []
  | .tagged value => itemsOf expected value
  | value => mismatch expected value

/-- The members of a map; an unquoted scalar without text is an empty one. -/
def membersOf (expected : String) : Value → Except Complaint (List (Value × Value))
  | .map members => .ok members
  | .loose "" .plain _ => .ok []
  | .tagged value => membersOf expected value
  | value => mismatch expected value

def Codec.list {α : Type} (codec : Codec α) : Codec (List α) where
  encode values := .ofItems (values.map codec.encode)
  decode value := do (← itemsOf "a sequence" value).mapM codec.decode

def Codec.sortedSet : Codec SortedSet where
  encode set := .ofItems (set.elements.map .string)
  decode value := do
    return SortedSet.ofList (← (← itemsOf "a sequence" value).mapM Codec.text.decode)

/-- The step to the member under a key, which only a scalar of the text itself can name. -/
def memberStep : Value → Step
  | .loose text _ _ => .member text
  | .tagged value => memberStep value
  | _ => .member "?"

/-- Reads the value of a member, whose key leads to its complaints. -/
def decodeWithin {α : Type} (decode : Value → Except Complaint α) (key value : Value) :
    Except Complaint α :=
  (decode value).mapError (·.within (memberStep key))

/-- Reads the entries of a map in order. -/
def decodeEntries {κ β : Type} (decodeKey : Value → Except Complaint κ)
    (decode : Value → Except Complaint β) (value : Value) : Except Complaint (List (κ × β)) := do
  (← membersOf "a map" value).mapM fun (key, value) ↦ do
    return (← decodeKey key, ← decodeWithin decode key value)

def Codec.sequencedMap {κ β : Type} [DecidableEq κ] (keyText : κ → String)
    (keyOfText : String → Except Complaint κ) (codec : Codec β) : Codec (SequencedMap κ β) where
  encode map := .ofMembers (map.entries.map fun entry ↦ (keyText entry.1, codec.encode entry.2))
  decode value := do
    let decodeKey (key : Value) := do keyOfText (← decodeText "a string" key)
    return SequencedMap.ofList (← decodeEntries decodeKey codec.decode value)

def Codec.sortedMap {β : Type} (codec : Codec β) : Codec (SortedMap β) where
  encode map := .ofMembers (map.entries.map fun entry ↦ (entry.1, codec.encode entry.2))
  decode value := do
    return SortedMap.ofList (← decodeEntries (decodeText "a string") codec.decode value)

/-! ## Values kept for later -/

mutual

/-- Reads a value of any kind and settles what it leaves open. -/
def hold : Value → Except Complaint Value
  | .list _ items => do return .list .held (← holdItems 0 items)
  | .map members => do return .map (← holdMembers members)
  | .loose text style tag =>
    match settle text style tag with
    | .ok (.int value) =>
      if integerWidth value = "" then .ok (.int value)
      else complain (.invalidType (.int value) "any value")
    | .ok value => .ok value
    | .error problem => complain problem
  | .tagged _ => complain .strayTag
  | .unreadable => complain .malformed
  | .broken => complain .malformed
  | value => .ok value

/-- Reads items of which the first has an index. -/
def holdItems (index : Nat) : List Value → Except Complaint (List Value)
  | [] => .ok []
  | item :: rest => do
    let held ← (hold item).mapError (·.within (.item index))
    return held :: (← holdItems (index + 1) rest)

def holdMembers : List (Value × Value) → Except Complaint (List (Value × Value))
  | [] => .ok []
  | (key, value) :: rest => do
    let heldKey ← hold key
    let held ← (hold value).mapError (·.within (memberStep key))
    return (heldKey, held) :: (← holdMembers rest)

end

end CommitCoordinator.Data
