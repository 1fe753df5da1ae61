import CommitCoordinator.Text.Quoted

/-!
# What can be wrong with data

A problem is a cause; its wording follows from the cause and from the text format, which
has its own word for an absent value. A complaint adds where in the data the problem lies.
-/

namespace CommitCoordinator.Data

open Text

/-- What was found in place of something else. -/
inductive Found where
  | null
  | bool (value : Bool)
  | int (value : Int)
  | float
  | string (text : String)
  | sequence
  | map
deriving DecidableEq, Repr

/-- The ways in which data fails to be what is expected. -/
inductive Problem where
  /-- The text is not of its format. -/
  | malformed
  | missingField (name : String)
  | duplicateField (name : String)
  | unknownField (name : String) (known : List String)
  | unknownVariant (name : String) (known : List String)
  | invalidType (found : Found) (expected : String)
  | invalidValue (found : Found) (expected : String)
  | invalidLength (length : Nat) (expected : String)
  | badUuid
  /-- A value whose tag asks for an interpretation that is not offered. -/
  | strayTag
deriving DecidableEq, Repr

/-- The words that a text format has of its own. -/
structure Wording where
  malformed : String
  null : String
  /-- Whether a message begins with the place of the problem. -/
  showsPlace : Bool
deriving DecidableEq, Repr

/-- A number beyond sixty-four bits names the width that it needs. -/
def integerWidth (value : Int) : String :=
  if Int64.minValue.toInt ≤ value ∧ value < UInt64.size then ""
  else if 0 ≤ value then " as u128" else " as i128"

def Found.describe (wording : Wording) : Found → String
  | .null => wording.null
  | .bool value => s!"boolean `{value}`"
  | .int value => s!"integer `{value}`{integerWidth value}"
  | .float => "floating point `<float>`"
  | .string text => "string " ++ quoted text
  | .sequence => "sequence"
  | .map => "map"

/-- A choice between names. -/
def oneOf : List String → String
  | [] => "there are no names"
  | [a] => s!"expected `{a}`"
  | [a, b] => s!"expected `{a}` or `{b}`"
  | names => "expected one of " ++ String.intercalate ", " (names.map fun name ↦ s!"`{name}`")

def Problem.message (wording : Wording) : Problem → String
  | .malformed => wording.malformed
  | .missingField name => s!"missing field `{name}`"
  | .duplicateField name => s!"duplicate field `{name}`"
  | .unknownField name known => s!"unknown field `{name}`, " ++ oneOf known
  | .unknownVariant name known => s!"unknown variant `{name}`, " ++ oneOf known
  | .invalidType found expected =>
    "invalid type: " ++ found.describe wording ++ ", expected " ++ expected
  | .invalidValue found expected =>
    "invalid value: " ++ found.describe wording ++ ", expected " ++ expected
  | .invalidLength length expected => s!"invalid length {length}, expected {expected}"
  | .badUuid => "UUID parsing failed"
  | .strayTag => "untagged and internally tagged enums do not support enum input"

/-- A step from a value to one of its parts. -/
inductive Step where
  | member (name : String)
  | item (index : Nat)
deriving DecidableEq, Repr

def Step.text : Step → String
  | .member name => "." ++ name
  | .item index => s!"[{index}]"

/-- The text of the steps that lead from the root to a place. -/
def placeText : List Step → String
  | .member name :: steps => name ++ String.join (steps.map Step.text)
  | steps => "." ++ String.join (steps.map Step.text)

/-- A problem and the steps that lead to it, the outermost first. -/
structure Complaint where
  place : List Step
  problem : Problem
deriving DecidableEq, Repr

namespace Complaint

def of (problem : Problem) : Complaint :=
  ⟨[], problem⟩

/-- The same complaint seen from a value one step above. -/
def within (step : Step) (complaint : Complaint) : Complaint :=
  { complaint with place := step :: complaint.place }

def message (wording : Wording) (complaint : Complaint) : String :=
  let text := complaint.problem.message wording
  if wording.showsPlace ∧ complaint.place ≠ [] ∧ complaint.problem ≠ .malformed then
    placeText complaint.place ++ ": " ++ text
  else text

end Complaint

/-- Fails with a problem at the present place. -/
def complain {α : Type} (problem : Problem) : Except Complaint α :=
  .error (.of problem)

end CommitCoordinator.Data
