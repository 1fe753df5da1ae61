import CommitCoordinator.Yaml.Scalar
import CommitCoordinator.Yaml.Tag

/-!
# The layout of a YAML text

The layout turns a text into tokens. Indentation starts and ends blocks. Whether a scalar is a key
is only known at the colon after it, so the place of a possible key is remembered, and its mark
is put in front of it later; a key takes no more than one line and a limited number of characters.
Tokens from a possible key on are held back until the matter is settled, so a fault in the text
cuts off all that is still held back.
-/

namespace CommitCoordinator.Yaml

/-- A place where a key may begin. -/
structure Candidate where
  /-- The position of its first token. -/
  position : Nat
  /-- Whether the text makes no sense unless a key begins there. -/
  isRequired : Bool
  index : Nat
  line : Nat
  column : Nat
deriving DecidableEq, Repr

/-- The state of the reader of tokens. -/
structure Layout where
  cursor : Cursor
  tokens : Array Token
  /-- The number of tokens that are not held back. -/
  released : Nat
  /-- The column of the innermost block, below zero outside of all blocks. -/
  indent : Int
  /-- The columns of the blocks around it. -/
  outerIndents : List Int
  /-- The possible key at the present level of brackets. -/
  candidate : Option Candidate
  /-- The possible keys before each open bracket, the innermost first. -/
  outerCandidates : List (Option Candidate)
  allowsKey : Bool

/-- A step of the layout; it fails where the text makes no sense. -/
abbrev LayoutM := StateT Layout Option

namespace Layout

def ofText (text : List Char) : Layout :=
  ⟨.ofText text, #[], 0, -1, [], none, [], true⟩

/-- Whether brackets are open. -/
def inFlow (layout : Layout) : Bool :=
  !layout.outerCandidates.isEmpty

def candidates (layout : Layout) : List Candidate :=
  (layout.candidate :: layout.outerCandidates).filterMap id

/-! ## Tokens and blocks -/

def push (token : Token) : LayoutM Unit :=
  modify fun layout ↦ { layout with tokens := layout.tokens.push token }

def setAllowsKey (allowsKey : Bool) : LayoutM Unit :=
  modify fun layout ↦ { layout with allowsKey }

/-- Passes characters of the line and adds their token. -/
def mark (width : Nat) (token : Token) : LayoutM Unit := do
  modify fun layout ↦ { layout with cursor := layout.cursor.skip width }
  push token

/-- Opens a block at a column right of the innermost block. Its start is put at a position. -/
def openBlock (column : Int) (position : Nat) (token : Token) : LayoutM Unit :=
  modify fun layout ↦
    if !layout.inFlow && layout.indent < column then
      { layout with
        indent := column
        outerIndents := layout.indent :: layout.outerIndents
        tokens := layout.tokens.insertIdxIfInBounds position token }
    else layout

/-- The columns that remain after closing the blocks right of a column, and their number. -/
def closedIndents (column : Int) (indent : Int) : List Int → Int × List Int × Nat
  | [] => (indent, [], 0)
  | outer :: rest =>
    if column < indent then
      let (indent, outers, count) := closedIndents column outer rest
      (indent, outers, count + 1)
    else (indent, outer :: rest, 0)

/-- Closes the blocks right of a column. -/
def closeBlocks (column : Int) : LayoutM Unit :=
  modify fun layout ↦
    if layout.inFlow then layout
    else
      let (indent, outerIndents, count) :=
        closedIndents column layout.indent layout.outerIndents
      { layout with
        indent, outerIndents
        tokens := layout.tokens ++ Array.replicate count .blockEnd }

/-! ## Possible keys -/

/-- The longest key, in characters. -/
def maxKeyLength : Nat := 1024

/-- Whether it is too late for the colon after a possible key. -/
def isStale (layout : Layout) (candidate : Candidate) : Bool :=
  candidate.line < layout.cursor.line || candidate.index + maxKeyLength < layout.cursor.index

/-- Gives up a possible key if it is too late for its colon. -/
def refresh (layout : Layout) : Option Candidate → Option (Option Candidate)
  | some candidate =>
    if layout.isStale candidate then if candidate.isRequired then none else some none
    else some (some candidate)
  | none => some none

/-- Gives up the possible keys for which it is too late. -/
def dropStale : LayoutM Unit := do
  let layout ← get
  let candidate ← layout.refresh layout.candidate
  let outerCandidates ← (layout.outerCandidates.mapM layout.refresh : Option _)
  set { layout with candidate, outerCandidates }

/-- Gives up the possible key at the present level. -/
def dropCandidate : LayoutM Unit := do
  let layout ← get
  if layout.candidate.any (·.isRequired) then failure
  else set { layout with candidate := none }

/-- Remembers the cursor as the place of a possible key. -/
def noteCandidate : LayoutM Unit := do
  let layout ← get
  if layout.allowsKey then
    dropCandidate
    let cursor := layout.cursor
    let isRequired := !layout.inFlow && layout.indent = cursor.column
    modify fun after ↦ { after with
      candidate :=
        some ⟨layout.tokens.size, isRequired, cursor.index, cursor.line, cursor.column⟩ }

/-! ## Single tokens -/

/-- Passes blanks, comments and breaks. After a break outside of brackets a key may begin. -/
def skipSpace (layout : Layout) : Nat → Layout
  | 0 => layout
  | fuel + 1 =>
    let cursor := layout.cursor
    let cursor := if cursor.index = 0 && cursor.next? = some '\uFEFF' then cursor.skip 1
      else cursor
    let allowsTab := layout.inFlow || !layout.allowsKey
    let cursor := (cursor.skipWhile fun c ↦ c = ' ' || (allowsTab && c = '\t')).skipComment
    match cursor.takeBreak? with
    | some (_, cursor) =>
      { layout with cursor, allowsKey := layout.allowsKey || !layout.inFlow }.skipSpace fuel
    | none => { layout with cursor }

/-- Ends all blocks before the beginning or the end of a document. -/
def endDocument : LayoutM Unit := do
  closeBlocks (-1)
  dropCandidate
  setAllowsKey false

def finish : LayoutM Unit := do
  modify fun layout ↦ { layout with
    cursor := if layout.cursor.column = 0 then layout.cursor else layout.cursor.newLine 0 }
  endDocument
  push .textEnd

def openBracket (token : Token) : LayoutM Unit := do
  noteCandidate
  modify fun layout ↦ { layout with
    candidate := none
    outerCandidates := layout.candidate :: layout.outerCandidates }
  setAllowsKey true
  mark 1 token

def closeBracket (token : Token) : LayoutM Unit := do
  dropCandidate
  modify fun layout ↦
    match layout.outerCandidates with
    | candidate :: outerCandidates => { layout with candidate, outerCandidates }
    | [] => layout
  setAllowsKey false
  mark 1 token

def comma : LayoutM Unit := do
  dropCandidate
  setAllowsKey true
  mark 1 .comma

/-- Opens a block for a mark that stands on its own, where a key may begin. -/
def openForMark (token : Token) : LayoutM Unit := do
  let layout ← get
  if !layout.inFlow then
    if layout.allowsKey then openBlock layout.cursor.column layout.tokens.size token else failure

def dash : LayoutM Unit := do
  openForMark .sequenceStart
  dropCandidate
  setAllowsKey true
  mark 1 .dash

def questionMark : LayoutM Unit := do
  openForMark .mappingStart
  dropCandidate
  setAllowsKey (!(← get).inFlow)
  mark 1 .key

/-- A colon settles that the possible key before it is one. -/
def colon : LayoutM Unit := do
  match (← get).candidate with
  | some candidate =>
    modify fun layout ↦ { layout with
      tokens := layout.tokens.insertIdxIfInBounds candidate.position .key
      candidate := none }
    openBlock candidate.column candidate.position .mappingStart
    setAllowsKey false
  | none =>
    openForMark .mappingStart
    setAllowsKey (!(← get).inFlow)
  mark 1 .value

/-- Adds the token that a reader finds at the cursor. -/
def readWith (reader : Layout → Option (Token × Cursor)) : LayoutM Unit := do
  let layout ← get
  let (token, cursor) ← reader layout
  set { layout with cursor }
  push token

/-- A token that a key may begin with. -/
def keyPart (reader : Layout → Option (Token × Cursor)) : LayoutM Unit := do
  noteCandidate
  setAllowsKey false
  readWith reader

def readNameToken (token : String → Token) (layout : Layout) : Option (Token × Cursor) := do
  let (name, cursor) ← readName (layout.cursor.skip 1)
  return (token name, cursor)

def readQuotedToken (isSingle : Bool) (layout : Layout) : Option (Token × Cursor) := do
  let (text, cursor) ← readQuoted isSingle (layout.cursor.rest.length + 1) (layout.cursor.skip 1)
  return (.scalar (String.ofList text) (if isSingle then .singleQuoted else .doubleQuoted), cursor)

def readBlockToken (isLiteral : Bool) (layout : Layout) : Option (Token × Cursor) := do
  let (text, cursor) ← readBlock isLiteral layout.indent (layout.cursor.skip 1)
  return (.scalar (String.ofList text) (if isLiteral then .literal else .folded), cursor)

def block (isLiteral : Bool) : LayoutM Unit := do
  dropCandidate
  setAllowsKey true
  readWith (readBlockToken isLiteral)

/-- Plain text; after a break that follows it a key may begin. -/
def plain : LayoutM Unit := do
  noteCandidate
  setAllowsKey false
  let layout ← get
  let (text, isFolded, cursor) ←
    readPlain layout.inFlow layout.indent .none (layout.cursor.rest.length + 1) layout.cursor
  set { layout with cursor, allowsKey := isFolded }
  push (.scalar (String.ofList text) .plain)

/-- Characters that plain text cannot begin with. -/
def isIndicator (c : Char) : Bool :=
  "-?:,[]{}#&*!|>'\"%@\x60".toList.contains c

/-- Whether plain text begins with a character and the text after it. -/
def startsPlain (inFlow : Bool) (c : Char) (rest : List Char) : Bool :=
  !(isSpace c || isIndicator c) ||
    (c = '-' && !(rest.head?.any isBlank)) ||
    (!inFlow && (c = '?' || c = ':') && !endsWord rest)

/-- The step for the first character of a token. -/
def stepAt (layout : Layout) (c : Char) (rest : List Char) : LayoutM Unit :=
  let inFlow := layout.inFlow
  let cursor := layout.cursor
  if cursor.column = 0 && c = '%' then do
    endDocument
    readWith fun layout ↦ readDirective layout.cursor
  else if cursor.isAtMark "---" then do
    endDocument
    mark 3 .documentStart
  else if cursor.isAtMark "..." then do
    endDocument
    mark 3 .documentEnd
  else if c = '[' then openBracket .flowSequenceStart
  else if c = '{' then openBracket .flowMappingStart
  else if c = ']' then closeBracket .flowSequenceEnd
  else if c = '}' then closeBracket .flowMappingEnd
  else if c = ',' then comma
  else if c = '-' && endsWord rest then dash
  else if c = '?' && (inFlow || endsWord rest) then questionMark
  else if c = ':' && (inFlow || endsWord rest) then colon
  else if c = '*' then keyPart (readNameToken .alias)
  else if c = '&' then keyPart (readNameToken .anchor)
  else if c = '!' then keyPart fun layout ↦ readTag layout.inFlow layout.cursor
  else if c = '|' && !inFlow then block true
  else if c = '>' && !inFlow then block false
  else if c = '\'' then keyPart (readQuotedToken true)
  else if c = '"' then keyPart (readQuotedToken false)
  else if startsPlain inFlow c rest then plain
  else failure

/-- Adds the next token. -/
def step : LayoutM Unit := do
  modify fun layout ↦ layout.skipSpace (layout.cursor.rest.length + 1)
  dropStale
  closeBlocks (← get).cursor.column
  let layout ← get
  match layout.cursor.rest with
  | [] => finish
  | c :: rest => stepAt layout c rest

/-- Releases the tokens before the first possible key. -/
def release : LayoutM Unit := do
  dropStale
  modify fun layout ↦ { layout with
    released := layout.candidates.foldl (fun bound c ↦ min bound c.position) layout.tokens.size }

/-- Adds tokens up to the end of the text or to the place where it stops making sense. -/
def run (layout : Layout) : Nat → Layout
  | 0 => layout
  | fuel + 1 =>
    match step.run layout with
    | none => layout
    | some (_, next) =>
      match release.run next with
      | none => layout
      | some (_, next) => if next.tokens.back? = some .textEnd then next else next.run fuel

end Layout

/-- The tokens of a text up to the place where it stops making sense. -/
def tokens (text : List Char) : List Token :=
  if text.all isPrintable then
    let layout := (Layout.ofText text).run (text.length + 2)
    layout.tokens.toList.take layout.released
  else []

end CommitCoordinator.Yaml
