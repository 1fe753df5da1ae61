/-!
# Untyped data

A value is what a text format hands to the reader of a record. Formats differ in how much they
settle: a scalar may leave its kind to the reader, and text that stops making sense leaves a
value behind that only fails when somebody looks at it.
-/

namespace CommitCoordinator.Data

/-- How a scalar without a settled kind was written. -/
inductive ScalarStyle where
  | plain
  | literal
  | quoted
deriving DecidableEq, Repr

/-- A kind asserted for a scalar by the text itself. -/
inductive KindTag where
  | bool
  | int
  | float
  | null
  | other
deriving DecidableEq, Repr

/-- What a list may stand for. -/
inductive ListForm where
  /-- Read item by item; it may hold the fields of a record in order. -/
  | streamed
  /-- Read whole beforehand; it may hold the fields of a record in order. -/
  | held
  /-- Never a record. -/
  | sequence
deriving DecidableEq, Repr

/-- Data as it is read and written in every format. -/
inductive Value where
  | null
  | bool (value : Bool)
  | int (value : Int)
  /-- A number with a fraction, an exponent or too many digits. -/
  | float
  | string (text : String)
  | list (form : ListForm) (items : List Value)
  /-- Members in the order of the text; a name may come twice. -/
  | map (members : List (Value × Value))
  /-- A scalar whose kind depends on what the reader asks for. -/
  | loose (text : String) (style : ScalarStyle) (tag : Option KindTag)
  /-- A value under a name that asks for an interpretation of its own. -/
  | tagged (value : Value)
  /-- A value that can be passed over but not read. -/
  | unreadable
  /-- The place where the text stops making sense. -/
  | broken
deriving Repr

namespace Value

/-- A list that is read item by item. -/
abbrev ofItems (items : List Value) : Value :=
  .list .streamed items

/-- A map from names. -/
def ofMembers (members : List (String × Value)) : Value :=
  .map (members.map fun member ↦ (.string member.1, member.2))

mutual

/-- Whether the text makes sense up to the end of the value. -/
def isIntact : Value → Bool
  | .broken => false
  | .list _ items => areIntact items
  | .map members => membersIntact members
  | .tagged value => isIntact value
  | _ => true

def areIntact : List Value → Bool
  | [] => true
  | item :: rest => isIntact item && areIntact rest

def membersIntact : List (Value × Value) → Bool
  | [] => true
  | (key, value) :: rest => isIntact key && isIntact value && membersIntact rest

end

end Value

end CommitCoordinator.Data
