import CommitCoordinator.Text.Hex

/-!
# Universally unique identifiers

An identifier is thirty-two hexadecimal digits, written in lower case with hyphens after the
eighth, twelfth, sixteenth and twentieth.
-/

namespace CommitCoordinator

/-- An identifier of thirty-two hexadecimal digits. -/
structure Uuid where
  digits : Vector (Fin 16) 32
deriving DecidableEq, Repr

namespace Uuid

open Text

/-- Thirty-two digits without hyphens. -/
def simpleChars (id : Uuid) : List Char :=
  id.digits.toList.map hexDigit

def simple (id : Uuid) : String :=
  String.ofList id.simpleChars

/-- The written form, with hyphens. -/
def hyphenatedChars (id : Uuid) : List Char :=
  let cs := id.simpleChars
  cs.take 8 ++ '-' :: (cs.drop 8).take 4 ++ '-' :: (cs.drop 12).take 4 ++
    '-' :: (cs.drop 16).take 4 ++ '-' :: cs.drop 20

/-- The written form: groups of 8, 4, 4, 4 and 12 digits. -/
def hyphenated (id : Uuid) : String :=
  String.ofList id.hyphenatedChars

instance : ToString Uuid := ⟨hyphenated⟩

/-- Reads exactly thirty-two digits. -/
def ofSimple? (cs : List Char) : Option Uuid := do
  let values ← cs.mapM hexValue?
  if h : values.toArray.size = 32 then some ⟨⟨values.toArray, h⟩⟩ else none

/-- Reads thirty-two digits with hyphens in their places. -/
def ofHyphenated? (cs : List Char) : Option Uuid :=
  if cs.length = 36 ∧ cs[8]? = some '-' ∧ cs[13]? = some '-' ∧ cs[18]? = some '-' ∧
      cs[23]? = some '-' then
    ofSimple? (cs.take 8 ++ (cs.drop 9).take 4 ++ (cs.drop 14).take 4 ++ (cs.drop 19).take 4 ++
      cs.drop 24)
  else none

def urnMark : List Char := "urn:uuid:".toList

/-- Reads the plain, hyphenated, braced and `urn:uuid:` forms. -/
def parse? (text : String) : Option Uuid :=
  let cs := text.toList
  if cs.length = 32 then ofSimple? cs
  else if cs.length = 36 then ofHyphenated? cs
  else if cs.length = 38 ∧ cs.head? = some '{' ∧ cs.getLast? = some '}' then
    ofHyphenated? (cs.drop 1).dropLast
  else if cs.length = 45 ∧ cs.take 9 = urnMark then ofHyphenated? (cs.drop 9)
  else none

/-- The version digit. -/
def version (id : Uuid) : Fin 16 :=
  id.digits[12]

/-- The version 4 identifier with the digits of a number. The version replaces one digit, and the
digit of the variant keeps its two low bits. -/
def ofNumber (n : Nat) : Uuid :=
  ⟨Vector.ofFn fun i ↦
    if i.val = 12 then hexPlace 4 0
    else if i.val = 16 then hexPlace (8 + (n >>> 60) % 4) 0
    else hexPlace n (31 - i.val)⟩

end Uuid

end CommitCoordinator
