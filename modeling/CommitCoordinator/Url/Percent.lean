import CommitCoordinator.Text.Hex
import CommitCoordinator.Text.Utf8

/-!
# Percent encoding

A character that has no place in a part of a URL is written as its UTF-8 bytes, each a percent
sign and two digits. Which characters these are depends on the part.
-/

namespace CommitCoordinator.Url

open Text

/-- A set of ASCII characters; every other character is escaped as well. -/
abbrev EscapeSet := Char → Bool

def isControl (c : Char) : Bool :=
  c.toNat < 32 || c.toNat = 127

def controlSet : EscapeSet := isControl

def fragmentSet : EscapeSet := fun c ↦
  isControl c || c = ' ' || c = '"' || c = '<' || c = '>' || c = '`'

def pathSet : EscapeSet := fun c ↦
  fragmentSet c || c = '#' || c = '?' || c = '{' || c = '}' || c = '^'

def userinfoSet : EscapeSet := fun c ↦
  pathSet c || c = '/' || c = ':' || c = ';' || c = '=' || c = '@' || c = '[' || c = '\\' ||
    c = ']' || c = '|'

def querySet : EscapeSet := fun c ↦
  isControl c || c = ' ' || c = '"' || c = '#' || c = '<' || c = '>'

def specialQuerySet : EscapeSet := fun c ↦
  querySet c || c = '\''

def escapeByte (byte : UInt8) : List Char :=
  '%' :: byteHexUpper byte

/-- The UTF-8 bytes of a character, each escaped. -/
def escapeChar (c : Char) : List Char :=
  (String.utf8EncodeChar c).flatMap escapeByte

def encodeChar (set : EscapeSet) (c : Char) : List Char :=
  if set c || 127 < c.toNat then escapeChar c else [c]

def percentEncode (set : EscapeSet) (cs : List Char) : List Char :=
  cs.flatMap (encodeChar set)

/-- The bytes of text in which each escape stands for its byte. -/
def percentDecode : List Char → List UInt8
  | [] => []
  | '%' :: a :: b :: rest =>
    match hexValue? a, hexValue? b with
    | some high, some low => UInt8.ofNat (high.val * 16 + low.val) :: percentDecode rest
    | _, _ => '%'.toUInt8 :: percentDecode (a :: b :: rest)
  | c :: rest => String.utf8EncodeChar c ++ percentDecode rest

end CommitCoordinator.Url
