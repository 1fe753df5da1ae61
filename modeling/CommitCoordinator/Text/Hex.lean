/-!
# Hexadecimal digits

Digits are written in lower case and read in either case.
-/

namespace CommitCoordinator.Text

/-- The lower-case digit of a value below sixteen. -/
def hexDigit (value : Fin 16) : Char :=
  if value.val < 10 then Char.ofNat (48 + value.val) else Char.ofNat (87 + value.val)

def hexUpper (value : Fin 16) : Char :=
  if value.val < 10 then Char.ofNat (48 + value.val) else Char.ofNat (55 + value.val)

/-- The value of a digit of either case. -/
def hexValue? (c : Char) : Option (Fin 16) :=
  let code := c.toNat
  if 48 ≤ code ∧ code ≤ 57 then some (Fin.ofNat 16 (code - 48))
  else if 97 ≤ code ∧ code ≤ 102 then some (Fin.ofNat 16 (code - 87))
  else if 65 ≤ code ∧ code ≤ 70 then some (Fin.ofNat 16 (code - 55))
  else none

theorem hexValue?_hexDigit : ∀ value : Fin 16, hexValue? (hexDigit value) = some value := by
  decide

/-- The digit of a number at a place, counted from the last. -/
def hexPlace (n place : Nat) : Fin 16 :=
  Fin.ofNat 16 (n >>> (4 * place))

/-- The two upper-case digits of a byte. -/
def byteHexUpper (byte : UInt8) : List Char :=
  [hexUpper (hexPlace byte.toNat 1), hexUpper (hexPlace byte.toNat 0)]

/-- The digits of a number in lower case, without leading zeros. -/
def hexDigits (n : Nat) : List Char :=
  Nat.toDigits 16 n

end CommitCoordinator.Text
