/-!
# Reading UTF-8

Bytes are read one encoded character at a time. Where no character starts, the longest run of
bytes that could have begun one is taken as a unit.
-/

namespace CommitCoordinator.Text

/-- What stands at the start of a byte sequence. -/
inductive Utf8Unit where
  /-- A whole character, with the number of bytes after its first. -/
  | char (c : Char) (more : Nat)
  /-- A run of bytes that belongs to no character, with the number of bytes after its first. -/
  | invalid (more : Nat)
  /-- The beginning of a character that the text ends in. -/
  | truncated
deriving DecidableEq, Repr

def isContinuation (byte : UInt8) : Bool :=
  0x80 ≤ byte && byte ≤ 0xBF

/-- The bits that a continuation byte adds. -/
def extendCode (code : Nat) (byte : UInt8) : Nat :=
  code * 64 + byte.toNat % 64

/-- The unit at a first byte and the bytes after it. -/
def utf8Unit (first : UInt8) (rest : List UInt8) : Utf8Unit :=
  let secondRange : UInt8 × UInt8 :=
    if first = 0xE0 then (0xA0, 0xBF) else if first = 0xED then (0x80, 0x9F)
    else if first = 0xF0 then (0x90, 0xBF) else if first = 0xF4 then (0x80, 0x8F)
    else (0x80, 0xBF)
  let isSecond (byte : UInt8) : Bool := secondRange.1 ≤ byte && byte ≤ secondRange.2
  if first < 0x80 then .char (Char.ofNat first.toNat) 0
  else if 0xC2 ≤ first && first ≤ 0xDF then
    match rest with
    | [] => .truncated
    | b :: _ =>
      if isSecond b then .char (Char.ofNat (extendCode (first.toNat % 32) b)) 1 else .invalid 0
  else if 0xE0 ≤ first && first ≤ 0xEF then
    match rest with
    | [] => .truncated
    | b :: rest =>
      if isSecond b then
        match rest with
        | [] => .truncated
        | c :: _ =>
          if isContinuation c then
            .char (Char.ofNat (extendCode (extendCode (first.toNat % 16) b) c)) 2
          else .invalid 1
      else .invalid 0
  else if 0xF0 ≤ first && first ≤ 0xF4 then
    match rest with
    | [] => .truncated
    | b :: rest =>
      if isSecond b then
        match rest with
        | [] => .truncated
        | c :: rest =>
          if isContinuation c then
            match rest with
            | [] => .truncated
            | d :: _ =>
              if isContinuation d then
                .char (Char.ofNat
                  (extendCode (extendCode (extendCode (first.toNat % 8) b) c) d)) 3
              else .invalid 2
          else .invalid 1
      else .invalid 0
  else .invalid 0

/-- Characters of a byte sequence, with one replacement character for each invalid unit. -/
def decodeLossy : List UInt8 → List Char
  | [] => []
  | first :: rest =>
    match utf8Unit first rest with
    | .char c more => c :: decodeLossy (rest.drop more)
    | .invalid more => '\uFFFD' :: decodeLossy (rest.drop more)
    | .truncated => ['\uFFFD']
termination_by bytes => bytes.length
decreasing_by all_goals simp only [List.length_drop, List.length_cons]; omega

/-- Where and how a byte sequence stops being UTF-8. -/
structure Utf8Fault where
  validUpTo : Nat
  /-- The length of the invalid unit, unless the text ends in it. -/
  length : Option Nat
deriving DecidableEq, Repr

/-- The first fault at or after an offset. -/
def utf8FaultFrom (offset : Nat) : List UInt8 → Option Utf8Fault
  | [] => none
  | first :: rest =>
    match utf8Unit first rest with
    | .char _ more => utf8FaultFrom (offset + more + 1) (rest.drop more)
    | .invalid more => some ⟨offset, some (more + 1)⟩
    | .truncated => some ⟨offset, none⟩
termination_by bytes => bytes.length
decreasing_by simp only [List.length_drop, List.length_cons]; omega

def utf8Fault? (bytes : List UInt8) : Option Utf8Fault :=
  utf8FaultFrom 0 bytes

namespace Utf8Fault

def message (fault : Utf8Fault) : String :=
  match fault.length with
  | some length =>
    s!"invalid utf-8 sequence of {length} bytes from index {fault.validUpTo}"
  | none => s!"incomplete utf-8 byte sequence from index {fault.validUpTo}"

end Utf8Fault

end CommitCoordinator.Text
