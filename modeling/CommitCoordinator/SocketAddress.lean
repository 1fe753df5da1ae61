import CommitCoordinator.Text.Decimal
import CommitCoordinator.Text.Hex

/-!
# Socket addresses

A socket address is an Internet address of either version with a port. Addresses of version 6
stand in brackets; they may leave out a run of zeros once, end in an address of version 4 and
carry a scope.
-/

namespace CommitCoordinator

open Text

/-- An address of four octets, or of eight groups with a scope. -/
inductive HostAddress where
  | v4 (octets : List Nat)
  | v6 (groups : List Nat) (scope : Nat)
deriving DecidableEq, Repr

/-- An address with a port. -/
structure SocketAddress where
  host : HostAddress
  port : Nat
deriving DecidableEq, Repr

namespace SocketAddress

/-! ## Numbers and separators -/

/-- Reads a mark. -/
def readMark (mark : Char) : List Char → Option (List Char)
  | c :: rest => if c = mark then some rest else none
  | [] => none

/-- Reads a mark unless it would stand in front of the first part. -/
def readSeparator (mark : Char) (isFirst : Bool) (text : List Char) : Option (List Char) :=
  if isFirst then some text else readMark mark text

/-- Reads digits of a base as a number below a bound. -/
def readNumber (base bound : Nat) (text : List Char) : Option (Nat × Nat × List Char) :=
  let digit? (c : Char) : Option Nat :=
    ((hexValue? c).map Fin.val).filter fun value ↦ decide (value < base)
  let digits := text.takeWhile fun c ↦ (digit? c).isSome
  let value := (digits.filterMap digit?).foldl (fun value digit ↦ value * base + digit) 0
  if digits ≠ [] ∧ value < bound then
    some (value, digits.length, text.drop digits.length)
  else none

/-! ## Addresses -/

/-- Reads a part of an address of version 4, without zeros in front. -/
def readOctet (text : List Char) : Option (Nat × List Char) := do
  let (value, length, rest) ← readNumber 10 256 text
  if length = 1 ∨ (length ≤ 3 ∧ text.head? ≠ some '0') then return (value, rest) else none

/-- Reads a number of octets. -/
def readOctets (isFirst : Bool) : Nat → List Char → Option (List Nat × List Char)
  | 0, text => some ([], text)
  | count + 1, text => do
    let (octet, rest) ← readOctet (← readSeparator '.' isFirst text)
    let (octets, rest) ← readOctets false count rest
    return (octet :: octets, rest)

/-- Two octets as one group. -/
def groupsOf : List Nat → List Nat
  | high :: low :: rest => (high * 256 + low) :: groupsOf rest
  | _ => []

/-- Reads an address of version 4 as two groups. -/
def readTail (isFirst : Bool) (text : List Char) : Option (List Nat × List Char) := do
  let (octets, rest) ← readOctets true 4 (← readSeparator ':' isFirst text)
  return (groupsOf octets, rest)

def readGroup (isFirst : Bool) (text : List Char) : Option (Nat × List Char) := do
  let (value, length, rest) ← readNumber 16 UInt16.size (← readSeparator ':' isFirst text)
  if length ≤ 4 then return (value, rest) else none

/-- Reads as many groups as there are, up to a number. The flag tells that the last two were
written as an address of version 4. -/
def readGroups (isFirst : Bool) : Nat → List Char → List Nat × Bool × List Char
  | 0, text => ([], false, text)
  | count + 1, text =>
    match if 0 < count then readTail isFirst text else none with
    | some (groups, rest) => (groups, true, rest)
    | none =>
      match readGroup isFirst text with
      | some (group, rest) =>
        let (groups, endsInTail, rest) := readGroups false count rest
        (group :: groups, endsInTail, rest)
      | none => ([], false, text)

/-- Reads the eight groups of an address of version 6. -/
def readV6 (text : List Char) : Option (List Nat × List Char) :=
  let (front, endsInTail, rest) := readGroups true 8 text
  if front.length = 8 then some (front, rest)
  else if endsInTail then none
  else do
    let rest ← readMark ':' (← readMark ':' rest)
    let (back, _, rest) := readGroups true (7 - front.length) rest
    return (front ++ List.replicate (8 - front.length - back.length) 0 ++ back, rest)

/-- Reads a scope, which is zero if it is left out. -/
def readScope (text : List Char) : Nat × List Char :=
  match (readMark '%' text).bind (readNumber 10 UInt32.size) with
  | some (scope, _, rest) => (scope, rest)
  | none => (0, text)

def readHost (text : List Char) : Option (HostAddress × List Char) :=
  match readOctets true 4 text with
  | some (octets, rest) => some (.v4 octets, rest)
  | none => do
    let (groups, rest) ← readV6 (← readMark '[' text)
    let (scope, rest) := readScope rest
    return (.v6 groups scope, ← readMark ']' rest)

/-- The address that text spells. -/
def parse? (text : String) : Option SocketAddress := do
  let (host, rest) ← readHost text.toList
  let (port, _, rest) ← readNumber 10 UInt16.size (← readMark ':' rest)
  if rest = [] then return ⟨host, port⟩ else none

end SocketAddress

end CommitCoordinator
