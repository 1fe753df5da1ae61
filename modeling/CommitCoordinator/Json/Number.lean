import CommitCoordinator.Data.Value
import CommitCoordinator.Text.Decimal

/-!
# Numbers in JSON

An integer of sixty-four bits is read exactly. A number with a fraction or an exponent, a larger
integer and a negative zero are floating-point numbers; one beyond their range cannot be read.
-/

namespace CommitCoordinator.Json

open Data Text

/-- A character of the text, or nothing where the bytes form no character. -/
abbrev Symbol := Option Char

def digitOf? : Symbol → Option Nat
  | some c => digitValue? c
  | none => none

/-- The digits at the front and the text after them. -/
def spanDigits : List Symbol → List Nat × List Symbol
  | [] => ([], [])
  | symbol :: rest =>
    match digitOf? symbol with
    | some digit =>
      let (digits, rest) := spanDigits rest
      (digit :: digits, rest)
    | none => ([], symbol :: rest)

def ofDigits (digits : List Nat) : Nat :=
  digits.foldl (fun total digit ↦ total * 10 + digit) 0

/-- The fraction after a point; the outer result is absent if the point has no digits. -/
def readFraction : List Symbol → Option (Option (List Nat) × List Symbol)
  | some '.' :: rest =>
    match spanDigits rest with
    | ([], _) => none
    | (digits, rest) => some (some digits, rest)
  | text => some (none, text)

/-- Reads the digits of an exponent with its sign. -/
def readExponentDigits (negative : Bool) (text : List Symbol) : Option (Int × List Symbol) :=
  match spanDigits text with
  | ([], _) => none
  | (digits, rest) =>
    some (if negative then -(ofDigits digits : Int) else ofDigits digits, rest)

/-- The exponent after its mark; the outer result is absent if the mark has no digits. -/
def readExponent : List Symbol → Option (Option Int × List Symbol)
  | some mark :: rest =>
    if mark = 'e' ∨ mark = 'E' then
      let read := match rest with
        | some '-' :: rest => readExponentDigits true rest
        | some '+' :: rest => readExponentDigits false rest
        | rest => readExponentDigits false rest
      read.map fun (exponent, rest) ↦ (some exponent, rest)
    else some (none, some mark :: rest)
  | text => some (none, text)

/-- The largest power of ten that a floating-point number is multiplied by. -/
def maxExponent : Int := 308

/-- The value of a number from its parts. -/
def numberValue (negative : Bool) (whole : List Nat) (fraction : Option (List Nat))
    (exponent : Option Int) : Value :=
  let magnitude := ofDigits whole
  let isFloat := fraction.isSome || exponent.isSome || (negative && magnitude = 0)
  if !isFloat && !negative && magnitude < UInt64.size then .int magnitude
  else if !isFloat && negative && Int64.minValue.toInt ≤ -(magnitude : Int) then
    .int (-(magnitude : Int))
  else
    let significand := ofDigits (whole ++ fraction.getD [])
    let scale := exponent.getD 0 - (fraction.getD []).length
    if fitsDouble significand scale &&
        (significand = 0 || scale ≤ maxExponent) then .float
    else .unreadable

/-- Reads a number; the result is absent where the text is none. -/
def readNumber (text : List Symbol) : Option (Value × List Symbol) := do
  let (negative, text) := match text with
    | some '-' :: rest => (true, rest)
    | text => (false, text)
  let (whole, text) := spanDigits text
  match whole with
  | [] => none
  | 0 :: _ :: _ => none
  | _ =>
    let (fraction, text) ← readFraction text
    let (exponent, text) ← readExponent text
    return (numberValue negative whole fraction exponent, text)

end CommitCoordinator.Json
