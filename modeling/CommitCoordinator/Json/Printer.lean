import CommitCoordinator.Data.Value
import CommitCoordinator.Text.Hex

/-!
# Writing JSON

Every printer takes the text that follows the value. The compact form has no blanks; the pretty
form puts each item on a line of its own, indented by two spaces for each level.
-/

namespace CommitCoordinator.Json

open Data Text

/-- A character inside a string. -/
def escapeChar (c : Char) : List Char :=
  if c = '"' then ['\\', '"']
  else if c = '\\' then ['\\', '\\']
  else if c = '\n' then ['\\', 'n']
  else if c = '\t' then ['\\', 't']
  else if c = '\r' then ['\\', 'r']
  else if c = '\x08' then ['\\', 'b']
  else if c = '\x0c' then ['\\', 'f']
  else if c.toNat < 32 then
    ['\\', 'u', '0', '0', hexDigit (hexPlace c.toNat 1), hexDigit (hexPlace c.toNat 0)]
  else [c]

/-- A string between quotes. -/
def printString (text : String) (rest : List Char) : List Char :=
  '"' :: (text.toList.flatMap escapeChar ++ '"' :: rest)

def printInt (value : Int) (rest : List Char) : List Char :=
  (toString value).toList ++ rest

/-- A value without members. Kinds that have no written form of their own are absent values. -/
def printScalar (value : Value) (rest : List Char) : List Char :=
  match value with
  | .bool true => "true".toList ++ rest
  | .bool false => "false".toList ++ rest
  | .int value => printInt value rest
  | .string text => printString text rest
  | _ => "null".toList ++ rest

mutual

/-- The compact form of a value before further text. -/
def print : Value → List Char → List Char
  | .list _ [], rest => '[' :: ']' :: rest
  | .list _ (item :: items), rest => '[' :: print item (printItems items (']' :: rest))
  | .map [], rest => '{' :: '}' :: rest
  | .map ((key, value) :: members), rest =>
    '{' :: print key (':' :: print value (printMembers members ('}' :: rest)))
  | value, rest => printScalar value rest

/-- Further items of a list, each after a comma. -/
def printItems : List Value → List Char → List Char
  | [], rest => rest
  | item :: items, rest => ',' :: print item (printItems items rest)

/-- Further members of a map, each after a comma. -/
def printMembers : List (Value × Value) → List Char → List Char
  | [], rest => rest
  | (key, value) :: members, rest =>
    ',' :: print key (':' :: print value (printMembers members rest))

end

/-- A line break and the indentation of a level. -/
def newLine (level : Nat) (rest : List Char) : List Char :=
  '\n' :: (List.replicate (2 * level) ' ' ++ rest)

mutual

/-- The pretty form of a value at a level before further text. -/
def printPretty (level : Nat) : Value → List Char → List Char
  | .list _ [], rest => '[' :: ']' :: rest
  | .list _ (item :: items), rest =>
    '[' :: newLine (level + 1) (printPretty (level + 1) item
      (printPrettyItems level items (newLine level (']' :: rest))))
  | .map [], rest => '{' :: '}' :: rest
  | .map ((key, value) :: members), rest =>
    '{' :: newLine (level + 1) (printPretty (level + 1) key (':' :: ' ' ::
      printPretty (level + 1) value
        (printPrettyMembers level members (newLine level ('}' :: rest)))))
  | value, rest => printScalar value rest

def printPrettyItems (level : Nat) : List Value → List Char → List Char
  | [], rest => rest
  | item :: items, rest =>
    ',' :: newLine (level + 1) (printPretty (level + 1) item (printPrettyItems level items rest))

def printPrettyMembers (level : Nat) : List (Value × Value) → List Char → List Char
  | [], rest => rest
  | (key, value) :: members, rest =>
    ',' :: newLine (level + 1) (printPretty (level + 1) key (':' :: ' ' ::
      printPretty (level + 1) value (printPrettyMembers level members rest)))

end

def compact (value : Value) : String :=
  String.ofList (print value [])

def pretty (value : Value) : String :=
  String.ofList (printPretty 0 value [])

end CommitCoordinator.Json
