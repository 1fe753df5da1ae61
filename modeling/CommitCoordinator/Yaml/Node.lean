import CommitCoordinator.Yaml.Token

/-!
# YAML nodes

A node is a scalar, a sequence, a mapping or a reference to a node with an anchor. Where the
tokens break off, or do not fit together, the nodes before that place are kept and a broken node
stands for the rest.
-/

namespace CommitCoordinator.Yaml

/-- What a node may carry besides its content. -/
structure Properties where
  anchor : Option String
  tag : Option String
deriving DecidableEq, Repr, Inhabited

/-- A node whose references are of a given type. -/
inductive Node (α : Type) where
  | scalar (properties : Properties) (text : String) (form : ScalarForm)
  | sequence (properties : Properties) (items : List (Node α))
  | mapping (properties : Properties) (members : List (Node α × Node α))
  | alias (target : α)
  /-- The place where the text stops making sense. -/
  | broken
deriving Repr

namespace Node

/-- A plain scalar without text stands where a node has been left out. -/
def empty {α : Type} (properties : Properties) : Node α :=
  .scalar properties "" .plain

def omitted {α : Type} : Node α :=
  empty ⟨none, none⟩

mutual

/-- Whether the text makes sense up to the end of the node. -/
def isIntact {α : Type} : Node α → Bool
  | .broken => false
  | .sequence _ items => areIntact items
  | .mapping _ members => membersIntact members
  | _ => true

def areIntact {α : Type} : List (Node α) → Bool
  | [] => true
  | item :: rest => isIntact item && areIntact rest

def membersIntact {α : Type} : List (Node α × Node α) → Bool
  | [] => true
  | (key, value) :: rest => isIntact key && isIntact value && membersIntact rest

end

end Node

/-- What has been read, and the tokens after it unless the text stops making sense. -/
abbrev Reading (α : Type) := α × Option (List Token)

/-! ## Tags -/

/-- What handles stand for; the first entry of a handle counts. -/
abbrev Handles := List (String × String)

def standardHandles : Handles :=
  [("!", "!"), ("!!", "tag:yaml.org,2002:")]

/-- The tag of a handle and a suffix. -/
def tagOf? (handles : Handles) (handle suffix : String) : Option String :=
  if handle = "" then some suffix
  else (handles.find? fun entry ↦ entry.1 = handle).map fun entry ↦ entry.2 ++ suffix

/-- Reads an anchor and a tag in either order. -/
def readProperties (handles : Handles) : List Token → Option (Properties × List Token)
  | .anchor name :: .tag handle suffix :: rest => do
    return (⟨some name, some (← tagOf? handles handle suffix)⟩, rest)
  | .tag handle suffix :: .anchor name :: rest => do
    return (⟨some name, some (← tagOf? handles handle suffix)⟩, rest)
  | .anchor name :: rest => some (⟨some name, none⟩, rest)
  | .tag handle suffix :: rest => do
    return (⟨none, some (← tagOf? handles handle suffix)⟩, rest)
  | tokens => some (⟨none, none⟩, tokens)

/-- A tag that is only an exclamation mark says nothing about a scalar. -/
def Properties.ofScalar (properties : Properties) : Properties :=
  if properties.tag = some "!" then { properties with tag := none } else properties

/-! ## Nodes -/

/-- Where a node stands. -/
inductive Position where
  | block
  /-- In a member of a block mapping, where dashes need no further indentation. -/
  | member
  | flow
deriving DecidableEq, Repr

/-- Whether a token cannot begin the item before it. -/
def endsBlockItem (token : Token) : Bool :=
  token = .dash || token = .blockEnd

def endsMember (token : Token) : Bool :=
  token = .key || token = .value || token = .blockEnd

def endsFlatItem (token : Token) : Bool :=
  token = .dash || endsMember token

def endsFlowItem (token : Token) : Bool :=
  token = .comma || token = .flowSequenceEnd

def endsFlowMember (token : Token) : Bool :=
  token = .comma || token = .flowMappingEnd

variable (handles : Handles)

mutual

/-- Reads a node. -/
def readNode (position : Position) : Nat → List Token → Reading (Node String)
  | 0, _ => (.broken, none)
  | fuel + 1, tokens =>
    match tokens with
    | .alias name :: rest => (.alias name, some rest)
    | tokens =>
      match readProperties handles tokens with
      | none => (.broken, none)
      | some (properties, tokens) =>
        match position, tokens with
        | _, [] => (.broken, none)
        | .member, .dash :: rest =>
          let (items, rest) := readFlatItems fuel (.dash :: rest)
          (.sequence properties items, rest)
        | _, .scalar text form :: rest => (.scalar properties.ofScalar text form, some rest)
        | _, .flowSequenceStart :: rest =>
          let (items, rest) := readFlowItems true fuel rest
          (.sequence properties items, rest)
        | _, .flowMappingStart :: rest =>
          let (members, rest) := readFlowMembers true fuel rest
          (.mapping properties members, rest)
        | position, token :: rest =>
          if position ≠ .flow ∧ token = .sequenceStart then
            let (items, rest) := readBlockItems fuel rest
            (.sequence properties items, rest)
          else if position ≠ .flow ∧ token = .mappingStart then
            let (members, rest) := readBlockMembers fuel rest
            (.mapping properties members, rest)
          else if properties.anchor.isSome || properties.tag.isSome then
            (.empty properties, some (token :: rest))
          else (.broken, none)

/-- Reads a node that is left out where a token of a class follows. -/
def readPart (position : Position) (isEnd : Token → Bool) :
    Nat → List Token → Reading (Node String)
  | 0, _ => (.broken, none)
  | _ + 1, [] => (.broken, none)
  | fuel + 1, token :: rest =>
    if isEnd token then (.omitted, some (token :: rest))
    else readNode position fuel (token :: rest)

/-- Reads the value of a member, which may be left out with its mark. -/
def readValue (position : Position) (isEnd : Token → Bool) :
    Nat → List Token → Reading (Node String)
  | 0, _ => (.broken, none)
  | fuel + 1, .value :: rest => readPart position isEnd fuel rest
  | _ + 1, [] => (.broken, none)
  | _ + 1, tokens => (.omitted, some tokens)

/-- Reads the items of a block. -/
def readBlockItems : Nat → List Token → Reading (List (Node String))
  | fuel + 1, .dash :: rest =>
    match readPart .block endsBlockItem fuel rest with
    | (item, some rest) =>
      let (items, rest) := readBlockItems fuel rest
      (item :: items, rest)
    | (item, none) => ([item], none)
  | _ + 1, .blockEnd :: rest => ([], some rest)
  | _, _ => ([.broken], none)

/-- Reads items that are not indented further than the mapping around them. -/
def readFlatItems : Nat → List Token → Reading (List (Node String))
  | fuel + 1, .dash :: rest =>
    match readPart .block endsFlatItem fuel rest with
    | (item, some rest) =>
      let (items, rest) := readFlatItems fuel rest
      (item :: items, rest)
    | (item, none) => ([item], none)
  | _ + 1, token :: rest => ([], some (token :: rest))
  | _, _ => ([.broken], none)

/-- Reads the members of a block. -/
def readBlockMembers : Nat → List Token → Reading (List (Node String × Node String))
  | fuel + 1, .key :: rest =>
    match readPart .member endsMember fuel rest with
    | (key, some rest) =>
      match readValue .member endsMember fuel rest with
      | (value, some rest) =>
        let (members, rest) := readBlockMembers fuel rest
        ((key, value) :: members, rest)
      | (value, none) => ([(key, value)], none)
    | (key, none) => ([(key, .broken)], none)
  | _ + 1, .blockEnd :: rest => ([], some rest)
  | _, _ => ([(.broken, .broken)], none)

/-- Reads the one member of a mapping without braces; a left out key takes the token after it
along. -/
def readPair : Nat → List Token → Reading (Node String × Node String)
  | fuel + 1, token :: rest =>
    let (key, rest) :=
      if token = .value || endsFlowItem token then (.omitted, some rest)
      else readNode .flow fuel (token :: rest)
    match rest with
    | some rest =>
      let (value, rest) := readValue .flow endsFlowItem fuel rest
      ((key, value), rest)
    | none => ((key, .broken), none)
  | _, _ => ((.broken, .broken), none)

/-- Reads items in brackets; only the first comes without a comma. -/
def readFlowItems (isFirst : Bool) : Nat → List Token → Reading (List (Node String))
  | _ + 1, .flowSequenceEnd :: rest => ([], some rest)
  | fuel + 1, .comma :: rest =>
    if isFirst then ([.broken], none) else readFlowItem fuel rest
  | fuel + 1, tokens => if isFirst then readFlowItem fuel tokens else ([.broken], none)
  | 0, _ => ([.broken], none)

/-- Reads an item in brackets and those after it. -/
def readFlowItem : Nat → List Token → Reading (List (Node String))
  | _ + 1, .flowSequenceEnd :: rest => ([], some rest)
  | fuel + 1, .key :: rest =>
    match readPair fuel rest with
    | (member, some rest) =>
      let (items, rest) := readFlowItems false fuel rest
      (.mapping ⟨none, none⟩ [member] :: items, rest)
    | (member, none) => ([.mapping ⟨none, none⟩ [member]], none)
  | fuel + 1, tokens =>
    match readNode .flow fuel tokens with
    | (item, some rest) =>
      let (items, rest) := readFlowItems false fuel rest
      (item :: items, rest)
    | (item, none) => ([item], none)
  | 0, _ => ([.broken], none)

/-- Reads members in braces; only the first comes without a comma. -/
def readFlowMembers (isFirst : Bool) :
    Nat → List Token → Reading (List (Node String × Node String))
  | _ + 1, .flowMappingEnd :: rest => ([], some rest)
  | fuel + 1, .comma :: rest =>
    if isFirst then ([(.broken, .broken)], none) else readFlowMember fuel rest
  | fuel + 1, tokens =>
    if isFirst then readFlowMember fuel tokens else ([(.broken, .broken)], none)
  | 0, _ => ([(.broken, .broken)], none)

/-- Reads a member in braces and those after it; one without a mark before it has no value. -/
def readFlowMember : Nat → List Token → Reading (List (Node String × Node String))
  | _ + 1, .flowMappingEnd :: rest => ([], some rest)
  | fuel + 1, .key :: rest =>
    let isEnd (token : Token) : Bool := token = .value || endsFlowMember token
    match readPart .flow isEnd fuel rest with
    | (key, some rest) =>
      match readValue .flow endsFlowMember fuel rest with
      | (value, some rest) =>
        let (members, rest) := readFlowMembers false fuel rest
        ((key, value) :: members, rest)
      | (value, none) => ([(key, value)], none)
    | (key, none) => ([(key, .broken)], none)
  | fuel + 1, tokens =>
    match readNode .flow fuel tokens with
    | (key, some []) => ([(key, .broken)], none)
    | (key, some rest) =>
      let (members, rest) := readFlowMembers false fuel rest
      ((key, .omitted) :: members, rest)
    | (key, none) => ([(key, .broken)], none)
  | 0, _ => ([(.broken, .broken)], none)

end

/-! ## Documents -/

/-- Whether a version is one of those that can be read. -/
def isKnownVersion (major minor : Nat) : Bool :=
  major = 1 && (minor = 1 || minor = 2)

/-- Reads the directives before a document; versions and handles are given once. -/
def readDirectives (hasVersion : Bool) (handles : Handles) :
    List Token → Option (Handles × List Token)
  | .version major minor :: rest =>
    if hasVersion || !isKnownVersion major minor then none
    else readDirectives true handles rest
  | .tagHandle handle stem :: rest =>
    if handles.any fun entry ↦ entry.1 = handle then none
    else readDirectives hasVersion (handles ++ [(handle, stem)]) rest
  | tokens => some (handles, tokens)

/-- Enough for every way through the given number of tokens. -/
def fuelFor (tokens : List Token) : Nat :=
  6 * tokens.length + 12

/-- Whether a document without content stands before a token. -/
def endsDocument : Token → Bool
  | .version _ _ => true
  | .tagHandle _ _ => true
  | .documentStart => true
  | .documentEnd => true
  | .textEnd => true
  | _ => false

/-- Reads the first document of a text. -/
def readFirst : List Token → Reading (Node String)
  | .textEnd :: rest => (.omitted, some (.textEnd :: rest))
  | token :: rest =>
    if endsDocument token && token ≠ .documentEnd then
      match readDirectives false [] (token :: rest) with
      | some (handles, .documentStart :: rest) =>
        readPart (handles ++ standardHandles) .block endsDocument (fuelFor rest) rest
      | _ => (.broken, none)
    else readNode standardHandles .block (fuelFor rest) (token :: rest)
  | [] => (.broken, none)

/-- The root of the first document of a text; the flag tells that nothing follows it. -/
def documentOf (tokens : List Token) : Node String × Bool :=
  match readFirst tokens with
  | (root, some rest) => (root, rest.dropWhile (· = .documentEnd) = [.textEnd])
  | (root, none) => (root, false)

end CommitCoordinator.Yaml
