import CommitCoordinator.Data.Codec
import CommitCoordinator.Json.Number
import CommitCoordinator.Json.Printer
import CommitCoordinator.Text.Utf8

/-!
# Reading JSON

The reader turns a text into a value that stays usable up to the place where the text stops being
JSON. A string with a lone surrogate or with bytes that form no character can only be passed
over, and so can lists and maps that are nested too deeply.
-/

namespace CommitCoordinator.Json

open Data Text

/-- The symbols of a byte sequence, one for each character or invalid unit. -/
def symbols : List UInt8 → List Symbol
  | [] => []
  | first :: rest =>
    match utf8Unit first rest with
    | .char c more => some c :: symbols (rest.drop more)
    | .invalid more => none :: symbols (rest.drop more)
    | .truncated => [none]
termination_by bytes => bytes.length
decreasing_by all_goals simp only [List.length_drop, List.length_cons]; omega

def symbolsOfText (text : String) : List Symbol :=
  text.toList.map some

def isSpace : Symbol → Bool
  | some c => c = ' ' || c = '\n' || c = '\t' || c = '\r'
  | none => false

def skipSpace (text : List Symbol) : List Symbol :=
  text.dropWhile isSpace

/-! ## Strings -/

/-- The character of a short escape. -/
def shortEscape? : Symbol → Option Char
  | some '"' => some '"'
  | some '\\' => some '\\'
  | some '/' => some '/'
  | some 'b' => some '\x08'
  | some 'f' => some '\x0c'
  | some 'n' => some '\n'
  | some 'r' => some '\r'
  | some 't' => some '\t'
  | _ => none

def hexOf? : Symbol → Option Nat
  | some c => (hexValue? c).map Fin.val
  | none => none

/-- The code of four hexadecimal digits and the text after them. -/
def readCode : List Symbol → Option (Nat × List Symbol)
  | a :: b :: c :: d :: rest => do
    return (((← hexOf? a) * 16 + (← hexOf? b)) * 256 + (← hexOf? c) * 16 + (← hexOf? d), rest)
  | _ => none

def isHighSurrogate (code : Nat) : Bool :=
  0xD800 ≤ code && code < 0xDC00

def isLowSurrogate (code : Nat) : Bool :=
  0xDC00 ≤ code && code < 0xE000

def joinSurrogates (high low : Nat) : Char :=
  Char.ofNat (0x10000 + (high - 0xD800) * 0x400 + (low - 0xDC00))

/-- The character of a code, which may need the escape after it; absent for a lone surrogate. -/
def readCoded (code : Nat) (rest : List Symbol) : Option Char × List Symbol :=
  if isHighSurrogate code then
    match rest with
    | some '\\' :: some 'u' :: tail =>
      match readCode tail with
      | some (low, after) =>
        if isLowSurrogate low then (some (joinSurrogates code low), after) else (none, rest)
      | none => (none, rest)
    | _ => (none, rest)
  else if isLowSurrogate code then (none, rest)
  else (some (Char.ofNat code), rest)

/-- Reads the rest of a string after its opening quote. The outer result is absent where the text
is no string, the characters where they cannot be read. -/
def readString : Nat → List Symbol → Option (Option (List Char) × List Symbol)
  | 0, _ => none
  | _ + 1, [] => none
  | _ + 1, some '"' :: rest => some (some [], rest)
  | fuel + 1, some '\\' :: some 'u' :: rest => do
    let (code, rest) ← readCode rest
    let (c, rest) := readCoded code rest
    let (cs, rest) ← readString fuel rest
    return (do return (← c) :: (← cs), rest)
  | fuel + 1, some '\\' :: escape :: rest => do
    let c ← shortEscape? escape
    let (cs, rest) ← readString fuel rest
    return (cs.map (c :: ·), rest)
  | fuel + 1, some c :: rest => do
    if c = '\\' ∨ c.toNat < 32 then none
    else
      let (cs, rest) ← readString fuel rest
      return (cs.map (c :: ·), rest)
  | fuel + 1, none :: rest => do
    let (_, rest) ← readString fuel rest
    return (none, rest)

/-- The value of a string that has been read. -/
def stringValue : Option (List Char) → Value
  | some cs => .string (String.ofList cs)
  | none => .unreadable

/-! ## Values -/

/-- Lists and maps may be nested one level less than this. -/
def maxDepth : Nat := 128

/-- Replaces a list or map below the deepest level. -/
def limitDepth (depth : Nat) (value : Value) : Value :=
  if depth < maxDepth then value
  else if value.isIntact then .unreadable else .broken

/-- Reads a word that stands for a value. -/
def readWord (word : String) (value : Value) (text : List Symbol) :
    Value × Option (List Symbol) :=
  if text.take word.length = symbolsOfText word then (value, some (text.drop word.length))
  else (.broken, none)

mutual

/-- Reads a value at a depth. The rest of the text is absent where it stops making sense. -/
def readValue (depth : Nat) : Nat → List Symbol → Value × Option (List Symbol)
  | 0, _ => (.broken, none)
  | fuel + 1, text =>
    match skipSpace text with
    | some '"' :: rest =>
      match readString (fuel + 1) rest with
      | some (cs, rest) => (stringValue cs, some rest)
      | none => (.broken, none)
    | some '[' :: rest =>
      match skipSpace rest with
      | some ']' :: rest => (limitDepth (depth + 1) (.ofItems []), some rest)
      | rest =>
        let (items, rest) := readItems (depth + 1) fuel rest
        (limitDepth (depth + 1) (.ofItems items), rest)
    | some '{' :: rest =>
      match skipSpace rest with
      | some '}' :: rest => (limitDepth (depth + 1) (.map []), some rest)
      | rest =>
        let (members, rest) := readMembers (depth + 1) fuel rest
        (limitDepth (depth + 1) (.map members), rest)
    | some 'n' :: rest => readWord "null" .null (some 'n' :: rest)
    | some 't' :: rest => readWord "true" (.bool true) (some 't' :: rest)
    | some 'f' :: rest => readWord "false" (.bool false) (some 'f' :: rest)
    | text =>
      match readNumber text with
      | some (value, rest) => (value, some rest)
      | none => (.broken, none)

/-- Reads items up to the end of their list. -/
def readItems (depth : Nat) : Nat → List Symbol → List Value × Option (List Symbol)
  | 0, _ => ([.broken], none)
  | fuel + 1, text =>
    match readValue depth fuel text with
    | (item, none) => ([item], none)
    | (item, some rest) =>
      match skipSpace rest with
      | some ',' :: rest =>
        let (items, rest) := readItems depth fuel rest
        (item :: items, rest)
      | some ']' :: rest => ([item], some rest)
      | _ => ([item, .broken], none)

/-- Reads members up to the end of their map. -/
def readMembers (depth : Nat) : Nat → List Symbol → List (Value × Value) × Option (List Symbol)
  | 0, _ => ([(.broken, .broken)], none)
  | fuel + 1, text =>
    match skipSpace text with
    | some '"' :: rest =>
      match readString (fuel + 1) rest with
      | none => ([(.broken, .broken)], none)
      | some (cs, rest) =>
        let key := stringValue cs
        match skipSpace rest with
        | some ':' :: rest =>
          match readValue depth fuel rest with
          | (value, none) => ([(key, value)], none)
          | (value, some rest) =>
            match skipSpace rest with
            | some ',' :: rest =>
              let (members, rest) := readMembers depth fuel rest
              ((key, value) :: members, rest)
            | some '}' :: rest => ([(key, value)], some rest)
            | _ => ([(key, value), (.broken, .broken)], none)
        | _ => ([(key, .broken)], none)
    | _ => ([(.broken, .broken)], none)

end

/-- Reads a text of one value; the flag tells that nothing but space follows. -/
def readDocument (text : List Symbol) : Value × Bool :=
  match readValue 0 (2 * (text.length + 1)) text with
  | (value, some rest) => (value, (skipSpace rest).isEmpty)
  | (value, none) => (value, false)

/-! ## Typed documents -/

/-- The words of JSON in messages. -/
def wording : Wording where
  malformed := "<malformed JSON>"
  null := "null"
  showsPlace := false

def decodeSymbols {α : Type} (codec : Codec α) (text : List Symbol) : Except Problem α :=
  let (value, isWhole) := readDocument text
  match codec.decode value with
  | .ok decoded => if isWhole then .ok decoded else .error .malformed
  | .error complaint => .error complaint.problem

/-- Reads a value of a type from bytes. -/
def decodeBytes {α : Type} (codec : Codec α) (bytes : List UInt8) : Except Problem α :=
  decodeSymbols codec (symbols bytes)

def decodeText {α : Type} (codec : Codec α) (text : String) : Except Problem α :=
  decodeSymbols codec (symbolsOfText text)

def encodeCompact {α : Type} (codec : Codec α) (value : α) : String :=
  compact (codec.encode value)

def encodePretty {α : Type} (codec : Codec α) (value : α) : String :=
  pretty (codec.encode value)

def describe (problem : Problem) : String :=
  problem.message wording

end CommitCoordinator.Json
