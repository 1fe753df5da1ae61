import CommitCoordinator.Text.Hex
import CommitCoordinator.Yaml.Cursor

/-!
# YAML scalars

A scalar is plain text, quoted text or an indented block. Text over several lines is folded: one
break between words is a space, and of several breaks the first is dropped.
-/

namespace CommitCoordinator.Yaml

open Text

/-! ## Space between words -/

/-- The space between two words. -/
structure Gap where
  /-- Blanks on one line. -/
  blanks : List Char
  /-- Whether the next word stands on a later line. -/
  isFolded : Bool
  /-- The first break, unless it was escaped. -/
  first : List Char
  /-- The breaks after the first. -/
  more : List Char
deriving DecidableEq, Repr

namespace Gap

def none : Gap :=
  ⟨[], false, [], []⟩

/-- The gap after an escaped break. -/
def escaped : Gap :=
  ⟨[], true, [], []⟩

/-- What a gap stands for in the text. -/
def chars (gap : Gap) : List Char :=
  if !gap.isFolded then gap.blanks
  else if gap.first = ['\n'] then if gap.more = [] then [' '] else gap.more
  else gap.first ++ gap.more

def addBreak (gap : Gap) (c : Char) : Gap :=
  if gap.isFolded then { gap with more := gap.more ++ [c] }
  else ⟨[], true, [c], []⟩

/-- Reads blanks and breaks. A tab left of the given column on a later line is refused. -/
def read (tabColumn : Int) (gap : Gap) : Nat → Cursor → Option (Gap × Cursor)
  | 0, cursor => some (gap, cursor)
  | fuel + 1, cursor =>
    match cursor.takeBreak? with
    | some (c, cursor) => (gap.addBreak c).read tabColumn fuel cursor
    | .none =>
      match cursor.next? with
      | some c =>
        if !isBlank c then some (gap, cursor)
        else if gap.isFolded && c = '\t' && cursor.column < tabColumn then .none
        else
          let gap := if gap.isFolded then gap else { gap with blanks := gap.blanks ++ [c] }
          gap.read tabColumn fuel (cursor.skip 1)
      | .none => some (gap, cursor)

end Gap

/-! ## Plain scalars -/

/-- A character that ends plain text inside brackets. -/
def isFlowMark (c : Char) : Bool :=
  c = ',' || c = '[' || c = ']' || c = '{' || c = '}'

/-- Whether a colon before this text is refused inside brackets. -/
def startsWithFlowMark : List Char → Bool
  | c :: _ => isFlowMark c || c = '?'
  | [] => false

/-- The plain text up to the next space or mark. -/
def plainWord? (inFlow : Bool) : List Char → Option (List Char)
  | [] => some []
  | c :: rest =>
    if isSpace c then some []
    else if inFlow && c = ':' && startsWithFlowMark rest then none
    else if (c = ':' && endsWord rest) || (inFlow && isFlowMark c) then some []
    else (plainWord? inFlow rest).map (c :: ·)

/-- Reads plain text; the flag tells that it was followed by a break. -/
def readPlain (inFlow : Bool) (indent : Int) (gap : Gap) :
    Nat → Cursor → Option (List Char × Bool × Cursor)
  | 0, _ => none
  | fuel + 1, cursor =>
    if cursor.isAtDocumentMark || cursor.next? = some '#' then some ([], gap.isFolded, cursor)
    else do
      let word ← plainWord? inFlow cursor.rest
      let after := cursor.skip word.length
      let lead := if word = [] then [] else gap.chars ++ word
      let before := if word = [] then gap else .none
      if !after.isAtEnd && endsWord after.rest then
        let (next, place) ← before.read (indent + 1) after.rest.length after
        if !inFlow && (place.column : Int) < indent + 1 then
          return (lead, next.isFolded, place)
        else
          let (more, isFolded, place) ← readPlain inFlow indent next fuel place
          return (lead ++ more, isFolded, place)
      else return (lead, before.isFolded, after)

/-! ## Quoted scalars -/

/-- The character of an escape of one letter. -/
def letterEscape? : Char → Option Char
  | '0' => some '\x00'
  | 'a' => some '\x07'
  | 'b' => some '\x08'
  | 't' => some '\t'
  | '\t' => some '\t'
  | 'n' => some '\n'
  | 'v' => some '\x0b'
  | 'f' => some '\x0c'
  | 'r' => some '\r'
  | 'e' => some '\x1b'
  | ' ' => some ' '
  | '"' => some '"'
  | '/' => some '/'
  | '\\' => some '\\'
  | 'N' => some '\u0085'
  | '_' => some '\u00a0'
  | 'L' => some '\u2028'
  | 'P' => some '\u2029'
  | _ => none

/-- The number of hexadecimal digits after an escape. -/
def escapeDigits? : Char → Option Nat
  | 'x' => some 2
  | 'u' => some 4
  | 'U' => some 8
  | _ => none

/-- The character of a code of hexadecimal digits; surrogates are no characters. -/
def charOfHex? (digits : List Char) : Option Char := do
  let values ← digits.mapM hexValue?
  let code := values.foldl (fun code digit ↦ code * 16 + digit.val) 0
  if h : code.isValidChar then some (Char.ofNatAux code h) else none

/-- Reads the quoted text up to the next space or the closing quote. -/
def readQuotedWord (isSingle : Bool) : Nat → Cursor → Option (List Char × Gap × Cursor)
  | 0, _ => none
  | fuel + 1, cursor => do
    let push (c : Char) (count : Nat) : Option (List Char × Gap × Cursor) := do
      let (word, gap, cursor) ← readQuotedWord isSingle fuel (cursor.skip count)
      return (c :: word, gap, cursor)
    match isSingle, cursor.rest with
    | _, [] => some ([], .none, cursor)
    | true, '\'' :: '\'' :: _ => push '\'' 2
    | true, '\'' :: _ => some ([], .none, cursor)
    | false, '"' :: _ => some ([], .none, cursor)
    | false, '\\' :: escape :: rest =>
      if isBreak escape then some ([], .escaped, (cursor.skip 1).skipBreak)
      else
        match escapeDigits? escape with
        | some count =>
          if rest.length < count then none
          else push (← charOfHex? (rest.take count)) (count + 2)
        | none => push (← letterEscape? escape) 2
    | false, ['\\'] => none
    | _, c :: _ => if isSpace c then some ([], .none, cursor) else push c 1

/-- Reads quoted text after its opening quote. -/
def readQuoted (isSingle : Bool) : Nat → Cursor → Option (List Char × Cursor)
  | 0, _ => none
  | fuel + 1, cursor =>
    if cursor.isAtDocumentMark || cursor.isAtEnd then none
    else do
      let (word, gap, cursor) ← readQuotedWord isSingle (cursor.rest.length + 1) cursor
      if cursor.next? = some (if isSingle then '\'' else '"') then return (word, cursor.skip 1)
      else
        let (gap, cursor) ← gap.read 0 cursor.rest.length cursor
        let (more, cursor) ← readQuoted isSingle fuel cursor
        return (word ++ gap.chars ++ more, cursor)

/-! ## Blocks -/

/-- What becomes of the breaks at the end of a block. -/
inductive Chomping where
  | strip
  | clip
  | keep
deriving DecidableEq, Repr

def chomping? : Char → Option Chomping
  | '+' => some .keep
  | '-' => some .strip
  | _ => none

/-- The chomping and the explicit indentation at the head of a block, in either order. -/
def readBlockHead (cursor : Cursor) : Option (Chomping × Nat × Cursor) :=
  let increment? (cursor : Cursor) : Option (Nat × Cursor) :=
    match cursor.next? with
    | some c =>
      if c = '0' then none
      else if c.isDigit then some (c.toNat - '0'.toNat, cursor.skip 1)
      else some (0, cursor)
    | none => some (0, cursor)
  match cursor.next?.bind chomping? with
  | some chomping => do
    let (increment, cursor) ← increment? (cursor.skip 1)
    return (chomping, increment, cursor)
  | none => do
    let (increment, cursor) ← increment? cursor
    match cursor.next?.bind chomping? with
    | some chomping => return (chomping, increment, cursor.skip 1)
    | none => return (.clip, increment, cursor)

/-- Reads the empty lines and the indentation before the next line with text. The indentation is
zero until it is known; the widest empty line is remembered. -/
def readBlockBreaks (indent widest : Nat) (breaks : List Char) :
    Nat → Cursor → Option (List Char × Nat × Cursor)
  | 0, cursor => some (breaks, widest, cursor)
  | fuel + 1, cursor =>
    let spaces := (cursor.run (· = ' ')).length
    let cursor := cursor.skip (if indent = 0 then spaces else min spaces (indent - cursor.column))
    let widest := max widest cursor.column
    if (indent = 0 ∨ cursor.column < indent) ∧ cursor.next? = some '\t' then none
    else
      match cursor.takeBreak? with
      | some (c, cursor) => readBlockBreaks indent widest (breaks ++ [c]) fuel cursor
      | none => some (breaks, widest, cursor)

/-- What ends a line of a block: its break and the empty lines after that. -/
structure BlockEnd where
  ending : List Char
  breaks : List Char
  /-- Whether the line begins with a blank. -/
  isIndented : Bool

/-- The text between a line and the next one. -/
def BlockEnd.join (previous : BlockEnd) (isLiteral startsBlank : Bool) : List Char :=
  if !isLiteral && previous.ending = ['\n'] && !previous.isIndented && !startsBlank then
    if previous.breaks = [] then [' '] else previous.breaks
  else previous.ending ++ previous.breaks

/-- Reads the lines of a block. -/
def readBlockLines (isLiteral : Bool) (indent : Nat) (previous : BlockEnd) :
    Nat → Cursor → Option (List Char × BlockEnd × Cursor)
  | 0, _ => none
  | fuel + 1, cursor =>
    if cursor.column = indent && !cursor.isAtEnd then do
      let startsBlank := (cursor.next?.map isBlank).getD false
      let lead := previous.join isLiteral startsBlank
      let line := cursor.run fun c ↦ !isBreak c
      let cursor := cursor.skip line.length
      let (ending, cursor) := match cursor.takeBreak? with
        | some (c, cursor) => ([c], cursor)
        | none => ([], cursor)
      let (breaks, _, cursor) ← readBlockBreaks indent 0 [] (cursor.rest.length + 1) cursor
      let (more, last, cursor) ←
        readBlockLines isLiteral indent ⟨ending, breaks, startsBlank⟩ fuel cursor
      return (lead ++ line ++ more, last, cursor)
    else some ([], previous, cursor)

/-- Reads a block after its mark; `outer` is the indentation around it. -/
def readBlock (isLiteral : Bool) (outer : Int) (cursor : Cursor) :
    Option (List Char × Cursor) := do
  let (chomping, increment, cursor) ← readBlockHead cursor
  let cursor ← cursor.finishLine?
  let given := if increment = 0 then 0 else outer.toNat + increment
  let (breaks, widest, cursor) ← readBlockBreaks given 0 [] (cursor.rest.length + 1) cursor
  let indent := if given = 0 then max (max widest (outer + 1).toNat) 1 else given
  let (text, last, cursor) ← readBlockLines isLiteral indent ⟨[], breaks, false⟩
    (cursor.rest.length + 1) cursor
  let tail := match chomping with
    | .strip => []
    | .clip => last.ending
    | .keep => last.ending ++ last.breaks
  return (text ++ tail, cursor)

end CommitCoordinator.Yaml
