import CommitCoordinator.Data.Problem
import CommitCoordinator.Data.Value
import CommitCoordinator.Text.Decimal

/-!
# Scalars whose kind their text leaves open

An unquoted scalar is absent, a truth value, a number or text by its spelling; a tag can ask
for one of these kinds. What asks for text gets the spelling as it is.
-/

namespace CommitCoordinator.Data

open Text

def spellsNull (text : String) : Bool :=
  text = "null" || text = "Null" || text = "NULL" || text = "~"

def spelledBool? (text : String) : Option Bool :=
  if text = "true" ∨ text = "True" ∨ text = "TRUE" then some true
  else if text = "false" ∨ text = "False" ∨ text = "FALSE" then some false
  else none

/-- A leading zero before further digits makes text, not a number. -/
def isPaddedDigits (cs : List Char) : Bool :=
  let cs := match cs with
    | '-' :: rest => rest
    | '+' :: rest => rest
    | cs => cs
  match cs with
  | '0' :: c :: rest => (c :: rest).all isDigit
  | _ => false

def hexNat? (c : Char) : Option Nat :=
  (hexValue? c).map Fin.val

/-- The magnitude after a base mark `0x`, `0o` or `0b`. -/
def markedNat? : List Char → Option Nat
  | '0' :: 'x' :: digits => natOfDigits? 16 hexNat? digits
  | '0' :: 'o' :: digits => natOfDigits? 8 digitValue? digits
  | '0' :: 'b' :: digits => natOfDigits? 2 digitValue? digits
  | _ => none

/-- The integer that text spells, within one hundred and twenty-eight bits. -/
def spelledInt? (text : String) : Option Int :=
  let cs := text.toList
  let ofMagnitude (negative : Bool) (magnitude : Nat) : Option Int :=
    if negative then if magnitude ≤ 1 <<< 127 then some (-(magnitude : Int)) else none
    else if magnitude < 1 <<< 128 then some magnitude else none
  let unsigned (cs : List Char) (negative : Bool) : Option Int :=
    match (markedNat? cs).bind (ofMagnitude negative) with
    | some value => some value
    | none =>
      if isPaddedDigits cs then none
      else (decimalNat? cs).bind (ofMagnitude negative)
  match cs with
  | '+' :: rest => unsigned rest false
  | '-' :: rest => unsigned rest true
  | cs => unsigned cs false

def spellsFloat (text : String) : Bool :=
  let isDecimal (cs : List Char) : Bool :=
    match Decimal.parse? cs with
    | some decimal => decimal.isFinite
    | none => false
  let isInfinity (cs : List Char) : Bool :=
    [".inf", ".Inf", ".INF"].contains (String.ofList cs)
  [".nan", ".NaN", ".NAN"].contains text ||
    match text.toList with
    | '+' :: rest => isInfinity rest || isDecimal rest
    | '-' :: rest => isInfinity rest || isDecimal rest
    | cs => isInfinity cs || isDecimal cs

/-- The kind of an unquoted scalar without a tag. -/
def spelledValue (text : String) : Value :=
  if text.isEmpty || spellsNull text then .null
  else match spelledBool? text with
    | some value => .bool value
    | none => match spelledInt? text with
      | some value => .int value
      | none =>
        if !isPaddedDigits text.toList && spellsFloat text then .float else .string text

/-- Settles the kind of a scalar by its tag or, unquoted, by its spelling. -/
def settle (text : String) (style : ScalarStyle) : Option KindTag → Except Problem Value
  | none => .ok (if style = .plain then spelledValue text else .string text)
  | some .bool => match spelledBool? text with
    | some value => .ok (.bool value)
    | none => .error (.invalidValue (.string text) "a boolean")
  | some .int => match spelledInt? text with
    | some value => .ok (.int value)
    | none => .error (.invalidValue (.string text) "an integer")
  | some .float =>
    if spellsFloat text then .ok .float
    else .error (.invalidValue (.string text) "a float")
  | some .null =>
    if spellsNull text then .ok .null
    else .error (.invalidValue (.string text) "null")
  | some .other => .ok (.string text)

end CommitCoordinator.Data
