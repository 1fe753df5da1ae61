import CommitCoordinator.Text.Hex
import CommitCoordinator.Text.Hidden

/-!
# Quoted text in messages

A message shows text between double quotes. Quotes, backslashes and the common controls have
short escapes, and a character that does not show is written by its code point.
-/

namespace CommitCoordinator.Text

/-- The text `\u{…}` with the code point in lower-case hexadecimal. -/
def codePointEscape (c : Char) : List Char :=
  '\\' :: 'u' :: '{' :: (hexDigits c.toNat ++ ['}'])

def quotedChar (c : Char) : List Char :=
  if c = '"' then ['\\', '"']
  else if c = '\\' then ['\\', '\\']
  else if c = '\n' then ['\\', 'n']
  else if c = '\r' then ['\\', 'r']
  else if c = '\t' then ['\\', 't']
  else if c = '\x00' then ['\\', '0']
  else if isHidden c then codePointEscape c
  else [c]

/-- Text between double quotes, escaped so that every character can be seen. -/
def quoted (text : String) : String :=
  String.ofList ('"' :: (text.toList.flatMap quotedChar ++ ['"']))

end CommitCoordinator.Text
