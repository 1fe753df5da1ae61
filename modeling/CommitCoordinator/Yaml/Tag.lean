import CommitCoordinator.Text.Hex
import CommitCoordinator.Text.Utf8
import CommitCoordinator.Yaml.Cursor
import CommitCoordinator.Yaml.Token

/-!
# YAML names, tags and directives

Anchors and aliases have names; a tag is a handle and a suffix, or a whole in angle brackets.
Directives before a document give its version and say what handles stand for.
-/

namespace CommitCoordinator.Yaml

open Text

/-- Whether the name of an anchor may end before this text. -/
def endsName : List Char → Bool
  | [] => true
  | c :: _ => isSpace c || ['?', ':', ',', ']', '}', '%', '@', '\x60'].contains c

/-- Reads the name of an anchor or alias after its mark. -/
def readName (cursor : Cursor) : Option (String × Cursor) :=
  let name := cursor.run isWordChar
  let after := cursor.skip name.length
  if name = [] || !endsName after.rest then none else some (String.ofList name, after)

/-! ## Tags -/

/-- A character of a tag; commas and brackets only inside angle brackets. -/
def isTagChar (isWhole : Bool) (c : Char) : Bool :=
  isWordChar c || ";/?:@&=+$.!~*'()".toList.contains c || (isWhole && ",[]".toList.contains c)

/-- The byte of an escape of two hexadecimal digits. -/
def escapedByte? : List Char → Option (UInt8 × List Char)
  | '%' :: high :: low :: rest => do
    return (UInt8.ofNat ((← hexValue? high).val * 16 + (← hexValue? low).val), rest)
  | _ => none

/-- The number of bytes of a character that begins with a byte. -/
def encodedWidth? (first : UInt8) : Option Nat :=
  if first < 0x80 then some 1
  else if first &&& 0xE0 = 0xC0 then some 2
  else if first &&& 0xF0 = 0xE0 then some 3
  else if first &&& 0xF8 = 0xF0 then some 4
  else none

/-- Reads further bytes of an escaped character. -/
def continuationBytes? : Nat → List Char → Option (List UInt8)
  | 0, _ => some []
  | count + 1, text => do
    let (byte, rest) ← escapedByte? text
    if isContinuation byte then return byte :: (← continuationBytes? count rest) else none

/-- The escaped character at the front of text, with the number of characters it is written in. -/
def escapedChar? (text : List Char) : Option (List Char × Nat) := do
  let (first, rest) ← escapedByte? text
  let width ← encodedWidth? first
  let bytes ← continuationBytes? (width - 1) rest
  return (decodeLossy (first :: bytes), width * 3)

/-- Reads the characters of a tag and resolves their escapes. -/
def readTagText (isWhole : Bool) : Nat → Cursor → Option (List Char × Cursor)
  | 0, cursor => some ([], cursor)
  | fuel + 1, cursor =>
    match cursor.next? with
    | some '%' => do
      let (cs, width) ← escapedChar? cursor.rest
      let (more, cursor) ← readTagText isWhole fuel (cursor.skip width)
      return (cs ++ more, cursor)
    | some c =>
      if isTagChar isWhole c then do
        let (more, cursor) ← readTagText isWhole fuel (cursor.skip 1)
        return (c :: more, cursor)
      else some ([], cursor)
    | none => some ([], cursor)

/-- Reads the text of a tag that may not be empty. -/
def readSuffix (isWhole : Bool) (cursor : Cursor) : Option (List Char × Cursor) := do
  let (text, after) ← readTagText isWhole cursor.rest.length cursor
  if text = [] then none else return (text, after)

/-- Reads an exclamation mark and what may be a handle after it. -/
def readHandle (cursor : Cursor) : Option (List Char × Cursor) :=
  match cursor.rest with
  | '!' :: rest =>
    let word := rest.takeWhile isWordChar
    let after := cursor.skip (word.length + 1)
    if after.next? = some '!' then some ('!' :: word ++ ['!'], after.skip 1)
    else some ('!' :: word, after)
  | _ => none

/-- Whether what has been read is a handle and not the beginning of a local tag. -/
def isHandle (text : List Char) : Bool :=
  2 ≤ text.length && text.getLast? = some '!'

/-- Reads a tag without a look at what follows. -/
def readTagName (cursor : Cursor) : Option ((List Char × List Char) × Cursor) :=
  match cursor.rest with
  | '!' :: '<' :: _ => do
    let (text, after) ← readSuffix true (cursor.skip 2)
    if after.next? = some '>' then return (([], text), after.skip 1) else none
  | _ => do
    let (handle, after) ← readHandle cursor
    if isHandle handle then
      let (suffix, after) ← readSuffix false after
      return ((handle, suffix), after)
    else
      let (more, after) ← readTagText false after.rest.length after
      let suffix := handle.drop 1 ++ more
      return (if suffix = [] then ([], ['!']) else (['!'], suffix), after)

/-- Reads a tag, which a space, the end of the line or, in brackets, a comma follows. -/
def readTag (inFlow : Bool) (cursor : Cursor) : Option (Token × Cursor) := do
  let ((handle, suffix), after) ← readTagName cursor
  if (inFlow && after.next? = some ',') || endsWord after.rest then
    return (.tag (String.ofList handle) (String.ofList suffix), after)
  else none

/-! ## Directives -/

/-- Version numbers have at most this many digits. -/
def maxVersionDigits : Nat := 9

/-- Reads a decimal number of few digits. -/
def readVersionPart (cursor : Cursor) : Option (Nat × Cursor) :=
  let digits := cursor.run Char.isDigit
  if digits = [] ∨ maxVersionDigits < digits.length then none
  else some ((String.ofList digits).toNat?.getD 0, cursor.skip digits.length)

def readVersion (cursor : Cursor) : Option (Token × Cursor) := do
  let (major, cursor) ← readVersionPart cursor.skipBlanks
  if cursor.next? = some '.' then
    let (minor, cursor) ← readVersionPart (cursor.skip 1)
    return (.version major minor, cursor)
  else none

def readTagHandle (cursor : Cursor) : Option (Token × Cursor) := do
  let (handle, cursor) ← readHandle cursor.skipBlanks
  if !(isHandle handle || handle = ['!']) || !(cursor.next?.any isBlank) then none
  else
    let (stem, cursor) ← readSuffix true cursor.skipBlanks
    if endsWord cursor.rest then
      return (.tagHandle (String.ofList handle) (String.ofList stem), cursor)
    else none

/-- Reads a directive with the rest of its line. -/
def readDirective (cursor : Cursor) : Option (Token × Cursor) := do
  let name := (cursor.skip 1).run isWordChar
  let after := cursor.skip (name.length + 1)
  let (token, after) ←
    if !endsWord after.rest then none
    else if name = "YAML".toList then readVersion after
    else if name = "TAG".toList then readTagHandle after
    else none
  return (token, ← after.finishLine?)

end CommitCoordinator.Yaml
