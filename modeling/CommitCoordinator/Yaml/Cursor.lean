/-!
# Places in a YAML text

A cursor is a place in a text: what follows it and where it stands. Lines end in any of five
breaks; the end of the text closes the last line.
-/

namespace CommitCoordinator.Yaml

/-- A place in a text. -/
structure Cursor where
  rest : List Char
  index : Nat
  line : Nat
  column : Nat
deriving DecidableEq, Repr

/-! ## Classes of characters -/

def isBlank (c : Char) : Bool :=
  c = ' ' || c = '\t'

def isBreak (c : Char) : Bool :=
  c = '\n' || c = '\r' || c = '\u0085' || c = '\u2028' || c = '\u2029'

def isSpace (c : Char) : Bool :=
  isBlank c || isBreak c

/-- A character of a name. -/
def isWordChar (c : Char) : Bool :=
  c.isAlphanum || c = '_' || c = '-'

/-- A character that a text may hold. -/
def isPrintable (c : Char) : Bool :=
  c = '\t' || c = '\n' || c = '\r' || c = '\u0085' ||
    (' ' ≤ c && c ≤ '~') || ('\u00a0' ≤ c && c ≤ '\ufffd') || 0x10000 ≤ c.toNat

/-- Whether text begins with a space or a break, or is at its end. -/
def endsWord : List Char → Bool
  | [] => true
  | c :: _ => isSpace c

/-- Whether text begins with a break or is at its end. -/
def endsLine : List Char → Bool
  | [] => true
  | c :: _ => isBreak c

namespace Cursor

def ofText (text : List Char) : Cursor :=
  ⟨text, 0, 0, 0⟩

def isAtEnd (cursor : Cursor) : Bool :=
  cursor.rest.isEmpty

def next? (cursor : Cursor) : Option Char :=
  cursor.rest.head?

/-- Passes characters of the present line. -/
def skip (cursor : Cursor) (count : Nat) : Cursor :=
  { cursor with
    rest := cursor.rest.drop count
    index := cursor.index + count
    column := cursor.column + count }

/-- Passes the characters of a class; breaks are not of the class. -/
def skipWhile (cursor : Cursor) (isIn : Char → Bool) : Cursor :=
  cursor.skip (cursor.rest.takeWhile isIn).length

/-- The characters of a class at the cursor. -/
def run (cursor : Cursor) (isIn : Char → Bool) : List Char :=
  cursor.rest.takeWhile isIn

def skipBlanks (cursor : Cursor) : Cursor :=
  cursor.skipWhile isBlank

/-- Passes a comment up to the end of the line. -/
def skipComment (cursor : Cursor) : Cursor :=
  if cursor.next? = some '#' then cursor.skipWhile fun c ↦ !isBreak c else cursor

/-- The cursor at the beginning of the next line. -/
def newLine (cursor : Cursor) (count : Nat) : Cursor :=
  ⟨cursor.rest.drop count, cursor.index + count, cursor.line + 1, 0⟩

/-- Reads the break at the cursor; all but the separators of lines and paragraphs are
one newline. -/
def takeBreak? (cursor : Cursor) : Option (Char × Cursor) :=
  match cursor.rest with
  | '\r' :: '\n' :: _ => some ('\n', cursor.newLine 2)
  | c :: _ =>
    if c = '\u2028' ∨ c = '\u2029' then some (c, cursor.newLine 1)
    else if isBreak c then some ('\n', cursor.newLine 1)
    else none
  | [] => none

/-- Passes the break at the cursor, if there is one. -/
def skipBreak (cursor : Cursor) : Cursor :=
  match cursor.takeBreak? with
  | some (_, cursor) => cursor
  | none => cursor

/-- Passes blanks, a comment and the break after them; nothing else may stand there. -/
def finishLine? (cursor : Cursor) : Option Cursor :=
  let cursor := cursor.skipBlanks.skipComment
  if endsLine cursor.rest then some cursor.skipBreak else none

/-- Whether the line begins with a mark of three characters of its own. -/
def isAtMark (cursor : Cursor) (mark : String) : Bool :=
  cursor.column = 0 && mark.toList.isPrefixOf cursor.rest && endsWord (cursor.rest.drop 3)

/-- Whether a document begins or ends here. -/
def isAtDocumentMark (cursor : Cursor) : Bool :=
  cursor.isAtMark "---" || cursor.isAtMark "..."

end Cursor

end CommitCoordinator.Yaml
