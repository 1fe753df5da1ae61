import CommitCoordinator.Text.Decimal
import CommitCoordinator.Url.Percent

/-!
# Hosts

The host of a well-known scheme is a domain name in ASCII or an address; the host of any other
scheme is kept as it is. An address is brought into its one written form.
-/

namespace CommitCoordinator.Url

open Text

/-- The pieces between separators. -/
def splitOnChar (separator : Char) : List Char → List (List Char)
  | [] => [[]]
  | c :: rest =>
    if c = separator then [] :: splitOnChar separator rest
    else match splitOnChar separator rest with
      | piece :: pieces => (c :: piece) :: pieces
      | [] => [[c]]

/-! ## Addresses of four bytes -/

/-- A number in decimal, or in hexadecimal or octal by its mark. -/
def addressNumber? (cs : List Char) : Option Nat :=
  let hex (digits : List Char) : Option Nat :=
    if digits.isEmpty then some 0 else natOfDigits? 16 (fun c ↦ (hexValue? c).map Fin.val) digits
  match cs with
  | '0' :: 'x' :: digits => hex digits
  | '0' :: 'X' :: digits => hex digits
  | '0' :: d :: digits => natOfDigits? 8 digitValue? (d :: digits)
  | cs => decimalNat? cs

/-- The pieces of a name between points, without an empty one at the end. -/
def addressPieces (name : List Char) : List (List Char) :=
  let pieces := splitOnChar '.' name
  if pieces.length > 1 ∧ pieces.getLast? = some [] then pieces.dropLast else pieces

def isHexMark (piece : List Char) : Bool :=
  match piece with
  | '0' :: x :: digits => (x = 'x' || x = 'X') && digits.all fun c ↦ (hexValue? c).isSome
  | _ => false

/-- Whether a name has to be an address because its last piece is a number. -/
def endsInNumber (name : List Char) : Bool :=
  match (addressPieces name).getLast? with
  | some piece => (!piece.isEmpty && piece.all isDigit) || isHexMark piece
  | none => false

/-- The address of numbers, of which the last fills the remaining bytes. -/
def addressOfNumbers? (numbers : List Nat) : Option Nat :=
  match numbers.getLast? with
  | none => none
  | some last =>
    let front := numbers.dropLast
    if 4 < numbers.length ∨ front.any (255 < ·) ∨ 1 <<< (8 * (5 - numbers.length)) ≤ last then none
    else
      let high := front.foldl (fun total n ↦ total * 256 + n) 0
      some (high <<< (8 * (5 - numbers.length)) + last)

def address4? (name : List Char) : Option Nat := do
  let numbers ← (addressPieces name).mapM fun piece ↦
    if piece.isEmpty then none else addressNumber? piece
  addressOfNumbers? numbers

def showAddress4 (address : Nat) : List Char :=
  let byte (i : Nat) : String := toString ((address >>> (8 * i)) % 256)
  (String.intercalate "." [byte 3, byte 2, byte 1, byte 0]).toList

/-! ## Addresses of eight groups -/

/-- Up to four hexadecimal digits and the text after them. -/
def spanGroup (cs : List Char) : List Char × List Char :=
  let digits := (cs.takeWhile fun c ↦ (hexValue? c).isSome).take 4
  (digits, cs.drop digits.length)

def groupValue (digits : List Char) : Nat :=
  digits.foldl (fun total c ↦ total * 16 + ((hexValue? c).map Fin.val).getD 0) 0

/-- A byte in decimal without leading zeros. -/
def addressByte? (cs : List Char) : Option Nat :=
  match cs with
  | '0' :: _ :: _ => none
  | cs => if cs.length ≤ 3 then (decimalNat? cs).filter (· < 256) else none

/-- The two groups of an address of four bytes at the end. -/
def embeddedGroups? (cs : List Char) : Option (List Nat) := do
  match ← (splitOnChar '.' cs).mapM addressByte? with
  | [a, b, c, d] => some [a * 256 + b, c * 256 + d]
  | _ => none

/-- Reads groups between colons; the position of a double colon is kept. -/
def readGroups : Nat → List Nat → Option Nat → List Char → Option (List Nat × Option Nat)
  | 0, _, _, _ => none
  | _ + 1, groups, gap, [] => some (groups, gap)
  | fuel + 1, groups, gap, ':' :: rest =>
    if gap.isSome then none else readGroups fuel groups (some groups.length) rest
  | fuel + 1, groups, gap, cs =>
    let (digits, rest) := spanGroup cs
    match rest with
    | [] => if digits.isEmpty then none else some (groups ++ [groupValue digits], gap)
    | ':' :: next =>
      if digits.isEmpty || next.isEmpty then none
      else readGroups fuel (groups ++ [groupValue digits]) gap next
    | '.' :: _ =>
      if digits.isEmpty then none
      else (embeddedGroups? cs).map fun pair ↦ (groups ++ pair, gap)
    | _ => none

/-- The eight groups of an address, of which a double colon leaves out some that are zero. -/
def address8? (cs : List Char) : Option (List Nat) := do
  let (groups, gap) ← match cs with
    | ':' :: ':' :: rest => readGroups (cs.length + 1) [] (some 0) rest
    | ':' :: _ => none
    | cs => readGroups (cs.length + 1) [] none cs
  match gap with
  | some position =>
    if groups.length < 8 then
      some (groups.take position ++ List.replicate (8 - groups.length) 0 ++ groups.drop position)
    else none
  | none => if groups.length = 8 then some groups else none

/-- The first of the longest runs of at least two zero groups, as its start and length. -/
def longestZeros (groups : List Nat) : Option (Nat × Nat) :=
  let runAt (i : Nat) : Nat := ((groups.drop i).takeWhile (· = 0)).length
  (List.range groups.length).foldl (fun best i ↦
    let length := runAt i
    let bestLength := (best.map Prod.snd).getD 1
    if bestLength < length then some (i, length) else best) none

def joinGroups (groups : List Nat) : List Char :=
  List.intercalate [':'] (groups.map hexDigits)

def showAddress8 (groups : List Nat) : List Char :=
  match longestZeros groups with
  | some (start, length) =>
    joinGroups (groups.take start) ++ ':' :: ':' :: joinGroups (groups.drop (start + length))
  | none => joinGroups groups

/-! ## Names -/

def isForbiddenInHost (c : Char) : Bool :=
  c = '\x00' || c = '\t' || c = '\n' || c = '\r' || c = ' ' || c = '#' || c = '/' || c = ':' ||
    c = '<' || c = '>' || c = '?' || c = '@' || c = '[' || c = '\\' || c = ']' || c = '^' || c = '|'

def isForbiddenInDomain (c : Char) : Bool :=
  isForbiddenInHost c || isControl c || c = '%'

/-- An address between square brackets. -/
def bracketed? (cs : List Char) : Option (List Char) :=
  if cs.getLast? = some ']' then
    (address8? (cs.drop 1).dropLast).map fun groups ↦ '[' :: (showAddress8 groups ++ [']'])
  else none

/-- The ASCII forms of domain names. A name with other letters, or with a label that stands for
such, takes its form from the tables of Unicode. -/
class DomainNames where
  toAscii : List Char → Option (List Char)

/-- Where there are no tables, names are only brought into lower case. -/
instance : DomainNames :=
  ⟨fun name ↦ some (name.map Char.toLower)⟩

/-- Whether the ASCII form of a name is the name itself in lower case. -/
def isPlainDomain (name : List Char) : Bool :=
  name.all (·.toNat < 128) &&
    (splitOnChar '.' name).all fun label ↦ (label.take 4).map Char.toLower ≠ ['x', 'n', '-', '-']

/-- The ASCII form of a name, if it has one. -/
def asciiDomain? [DomainNames] (name : List Char) : Option (List Char) :=
  if isPlainDomain name then some (name.map Char.toLower) else DomainNames.toAscii name

/-- The host of a well-known scheme. -/
def domainHost? [DomainNames] (cs : List Char) : Option (List Char) :=
  if cs.head? = some '[' then bracketed? cs
  else do
    let bytes := percentDecode cs
    let name ← if (utf8Fault? bytes).isSome then none else asciiDomain? (decodeLossy bytes)
    if name.isEmpty ∨ name.any isForbiddenInDomain then none
    else if endsInNumber name then (address4? name).map showAddress4
    else some name

/-- The host of any other scheme, which may be empty. -/
def opaqueHost? (cs : List Char) : Option (List Char) :=
  if cs.head? = some '[' then bracketed? cs
  else if cs.any isForbiddenInHost then none
  else some (percentEncode controlSet cs)

end CommitCoordinator.Url
