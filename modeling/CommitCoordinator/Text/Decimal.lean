/-!
# Decimal numbers

Digits are read into natural numbers. A decimal with an exponent fits a double-precision number
unless it reaches half a unit beyond the largest finite one.
-/

namespace CommitCoordinator.Text

def digitValue? (c : Char) : Option Nat :=
  if '0' ≤ c ∧ c ≤ '9' then some (c.toNat - 48) else none

def isDigit (c : Char) : Bool :=
  '0' ≤ c && c ≤ '9'

/-- The number that digits denote in a base, if each is below the base. -/
def natOfDigits? (base : Nat) (value? : Char → Option Nat) (cs : List Char) : Option Nat :=
  if cs.isEmpty then none
  else cs.foldlM (fun total c ↦ do
    let value ← value? c
    if value < base then some (total * base + value) else none) 0

def decimalNat? (cs : List Char) : Option Nat :=
  natOfDigits? 10 digitValue? cs

/-- The first magnitude that rounds to infinity. -/
def doubleOverflow : Nat :=
  1 <<< 1024 - 1 <<< 970

/-- Whether `significand * 10 ^ exponent` rounds to a finite double. -/
def fitsDouble (significand : Nat) (exponent : Int) : Bool :=
  let magnitude : Int := (toString significand).length + exponent
  if significand = 0 then true
  else if magnitude > 310 then false
  else if magnitude < 300 then true
  else if exponent < 0 then
    significand < doubleOverflow * Nat.pow 10 exponent.natAbs
  else significand * Nat.pow 10 exponent.natAbs < doubleOverflow

/-- The parts of a decimal: the digits before and after the point and the exponent. -/
structure Decimal where
  whole : List Char
  fraction : List Char
  exponent : Int
deriving Repr

/-- Reads an exponent, `e` and an optional sign before at least one digit, that ends the text. -/
def exponentOf? : List Char → Option Int
  | [] => some 0
  | mark :: rest =>
    if mark = 'e' ∨ mark = 'E' then
      match rest with
      | '-' :: digits => (decimalNat? digits).map fun n ↦ -(n : Int)
      | '+' :: digits => (decimalNat? digits).map Int.ofNat
      | digits => (decimalNat? digits).map Int.ofNat
    else none

/-- Reads an unsigned decimal with at least one digit beside its point. -/
def Decimal.parse? (cs : List Char) : Option Decimal :=
  let whole := cs.takeWhile isDigit
  let (fraction, rest) := match cs.dropWhile isDigit with
    | '.' :: rest => (rest.takeWhile isDigit, rest.dropWhile isDigit)
    | rest => ([], rest)
  if whole.isEmpty ∧ fraction.isEmpty then none
  else (exponentOf? rest).map fun exponent ↦ ⟨whole, fraction, exponent⟩

def Decimal.isFinite (decimal : Decimal) : Bool :=
  match decimalNat? (decimal.whole ++ decimal.fraction) with
  | some significand => fitsDouble significand (decimal.exponent - decimal.fraction.length)
  | none => false

end CommitCoordinator.Text
