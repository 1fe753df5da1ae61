import CommitCoordinator.Url.Host

/-!
# Locations as URLs

A URL has a scheme and, depending on the scheme, a host, a path, a query and a fragment. Parsing
brings each part into its written form: escapes are added, and parts of the path that are one or
two points are resolved.
-/

namespace CommitCoordinator

open Url

/-- What comes between the two slashes and the path. -/
structure Authority where
  username : String
  password : Option String
  /-- The host in its written form; an absent host is empty. -/
  host : String
  /-- The port unless it is the one that the scheme has anyway. -/
  port : Option Nat
deriving DecidableEq, Repr

/-- A location as the parts of its text. -/
structure Url where
  scheme : String
  authority : Option Authority
  path : String
  /-- Whether the path is one text without parts. -/
  isOpaque : Bool
  query : Option String
  fragment : Option String
deriving DecidableEq, Repr

namespace Url

/-! ## Schemes -/

/-- The schemes whose URLs always have a host, with their usual ports. -/
def hostSchemes : List (String × Nat) :=
  [("http", 80), ("https", 443), ("ws", 80), ("wss", 443), ("ftp", 21)]

/-- How the part behind the scheme is read. -/
inductive SchemeKind where
  | file
  | hosted
  | other
deriving DecidableEq, Repr

def schemeKind (scheme : String) : SchemeKind :=
  if scheme = "file" then .file
  else if hostSchemes.any fun entry ↦ entry.1 = scheme then .hosted
  else .other

def SchemeKind.isSpecial : SchemeKind → Bool
  | .other => false
  | _ => true

def isSchemeChar (c : Char) : Bool :=
  c.isAlphanum || c = '+' || c = '-' || c = '.'

/-- The scheme in lower case and the text after its colon. -/
def splitScheme? (cs : List Char) : Option (String × List Char) :=
  match cs with
  | [] => none
  | first :: _ =>
    if first.isAlpha then
      match cs.dropWhile isSchemeChar with
      | ':' :: rest => some (String.ofList ((cs.takeWhile isSchemeChar).map Char.toLower), rest)
      | _ => none
    else none

/-! ## Paths -/

def isSlash (special : Bool) (c : Char) : Bool :=
  c = '/' || (special && c = '\\')

/-- Splits text at the first of some characters, which stays with the rest. -/
def breakAt (isEnd : Char → Bool) (cs : List Char) : List Char × List Char :=
  (cs.takeWhile fun c ↦ !isEnd c, cs.dropWhile fun c ↦ !isEnd c)

def isPathEnd (c : Char) : Bool :=
  c = '?' || c = '#'

/-- The pieces of a path, each with whether a slash follows it. -/
def segments (special : Bool) : List Char → List (List Char × Bool)
  | [] => [([], false)]
  | c :: rest =>
    if isSlash special c then ([], true) :: segments special rest
    else match segments special rest with
      | (segment, slash) :: others => (c :: segment, slash) :: others
      | [] => [([c], false)]

/-- A segment with escaped points in plain form, in lower case. -/
def plainPoints : List Char → List Char
  | '%' :: '2' :: 'e' :: rest => '.' :: plainPoints rest
  | '%' :: '2' :: 'E' :: rest => '.' :: plainPoints rest
  | c :: rest => c :: plainPoints rest
  | [] => []

def isSinglePoint (segment : List Char) : Bool :=
  plainPoints segment = ['.']

def isDoublePoint (segment : List Char) : Bool :=
  plainPoints segment = ['.', '.']

def isDriveLetter (segment : List Char) : Bool :=
  match segment with
  | [letter, mark] => letter.isAlpha && (mark = ':' || mark = '|')
  | _ => false

def isNormalDriveLetter (segment : List Char) : Bool :=
  match segment with
  | [letter, ':'] => letter.isAlpha
  | _ => false

/-- Removes the last segment unless it is the drive of a file path. -/
def shorten (kind : SchemeKind) (path : List (List Char)) : List (List Char) :=
  match path with
  | [segment] => if kind = .file ∧ isNormalDriveLetter segment then [segment] else []
  | path => path.dropLast

/-- Adds a segment to a path. -/
def addSegment (kind : SchemeKind) (path : List (List Char)) (piece : List Char × Bool) :
    List (List Char) :=
  let (segment, slash) := piece
  if isDoublePoint segment then
    let path := shorten kind path
    if slash then path else path ++ [[]]
  else if isSinglePoint segment then
    if slash then path else path ++ [[]]
  else if kind = .file ∧ path = [] ∧ isDriveLetter segment then
    path ++ [segment.take 1 ++ [':']]
  else path ++ [percentEncode pathSet segment]

/-- A path with a slash before each segment. -/
def showPath (path : List (List Char)) : List Char :=
  path.flatMap fun segment ↦ '/' :: segment

/-- The written form of the text after the first slash of a path. -/
def normalPath (kind : SchemeKind) (cs : List Char) : List Char :=
  let path := (segments kind.isSpecial cs).foldl (addSegment kind) []
  let path := if kind = .file then
      let front := path.dropLast.dropWhile (· = [])
      front ++ (path.getLast?).toList
    else path
  showPath path

/-- The path, which of a special scheme is never empty, and the text after it. -/
def readPath (kind : SchemeKind) (cs : List Char) : List Char × List Char :=
  let (text, rest) := breakAt isPathEnd cs
  match text with
  | [] => (if kind.isSpecial then ['/'] else [], rest)
  | c :: tail =>
    if isSlash kind.isSpecial c then (normalPath kind tail, rest)
    else (normalPath kind (c :: tail), rest)

/-! ## Authorities -/

def isAuthorityEnd (special : Bool) (c : Char) : Bool :=
  isSlash special c || isPathEnd c

/-- The text before the last `@` and the text after it. -/
def splitUserinfo (cs : List Char) : Option (List Char × List Char) :=
  if cs.contains '@' then
    let host := (cs.reverse.takeWhile (· ≠ '@')).reverse
    some (cs.take (cs.length - host.length - 1), host)
  else none

/-- The user name and the password, of which an empty one counts as absent. -/
def readUserinfo (cs : List Char) : String × Option String :=
  let encode (cs : List Char) : String := String.ofList (percentEncode userinfoSet cs)
  let (name, rest) := breakAt (· = ':') cs
  match rest with
  | _ :: c :: password => (encode name, some (encode (c :: password)))
  | _ => (encode name, none)

/-- The host up to a colon outside of brackets, and the text after it. -/
def splitHost (inBrackets : Bool) : List Char → List Char × List Char
  | [] => ([], [])
  | c :: rest =>
    if c = ':' && !inBrackets then ([], c :: rest)
    else
      let inside := if c = '[' then true else if c = ']' then false else inBrackets
      let (host, rest) := splitHost inside rest
      (c :: host, rest)

/-- The port of a scheme, absent if it is the usual one; the outer result fails for no number. -/
def readPort (scheme : String) (cs : List Char) : Option (Option Nat) :=
  if cs.isEmpty then some none
  else
    match Text.decimalNat? cs with
    | some port =>
      if 65535 < port then none
      else if hostSchemes.contains (scheme, port) then some none
      else some (some port)
    | none => none

/-- The authority between the two slashes and the path. -/
def readAuthority [DomainNames] (scheme : String) (cs : List Char) : Option Authority := do
  let special := (schemeKind scheme).isSpecial
  let (userinfo, hostText) := match splitUserinfo cs with
    | some (userinfo, rest) => (some userinfo, rest)
    | none => (none, cs)
  let (username, password) := readUserinfo (userinfo.getD [])
  let (hostChars, rest) := splitHost false hostText
  let host ← if special then domainHost? hostChars else opaqueHost? hostChars
  if host.isEmpty && (!rest.isEmpty || userinfo.isSome) then none
  let port ← match rest with
    | _ :: port => readPort scheme port
    | [] => some none
  return ⟨username, password, String.ofList host, port⟩

/-- The host of a file URL; a drive letter belongs to the path. -/
def readFileHost [DomainNames] (cs : List Char) : Option (Authority × List Char) :=
  let (text, rest) := breakAt (isAuthorityEnd true) cs
  if isDriveLetter text then some (⟨"", none, "", none⟩, cs)
  else if text.isEmpty then some (⟨"", none, "", none⟩, rest)
  else (domainHost? text).map fun host ↦
    let host := if host = "localhost".toList then [] else host
    (⟨"", none, String.ofList host, none⟩, rest)

/-! ## Whole URLs -/

/-- The query and the fragment. -/
def readTail (kind : SchemeKind) (cs : List Char) : Option String × Option String :=
  let set := if kind.isSpecial then specialQuerySet else querySet
  let readFragment (cs : List Char) : Option String :=
    match cs with
    | _ :: fragment => some (String.ofList (percentEncode fragmentSet fragment))
    | [] => none
  match cs with
  | '?' :: rest =>
    let (query, rest) := breakAt (· = '#') rest
    (some (String.ofList (percentEncode set query)), readFragment rest)
  | cs => (none, readFragment cs)

def make (scheme : String) (authority : Option Authority) (path : List Char) (isOpaque : Bool)
    (rest : List Char) : Url :=
  let (query, fragment) := readTail (schemeKind scheme) rest
  ⟨scheme, authority, String.ofList path, isOpaque, query, fragment⟩

/-- Reads what follows the two slashes. -/
def readHosted [DomainNames] (scheme : String) (cs : List Char) : Option Url := do
  let kind := schemeKind scheme
  let (text, rest) := breakAt (isAuthorityEnd kind.isSpecial) cs
  let authority ← readAuthority scheme text
  let (path, rest) := readPath kind rest
  return make scheme (some authority) path false rest

/-- Whether the first segment of a path is a drive. -/
def startsWithDrive (path : List Char) : Bool :=
  isNormalDriveLetter ((path.drop 1).take 2) && (path.drop 3 = [] || (path.drop 3).head? = some '/')

/-- A file on a drive has no host. -/
def Authority.onDrive (authority : Authority) (path : List Char) : Authority :=
  if startsWithDrive path then { authority with host := "" } else authority

def readFile [DomainNames] (cs : List Char) : Option Url := do
  let slashes := (cs.take 2).takeWhile (isSlash true)
  if slashes.length = 2 then
    let (authority, rest) ← readFileHost (cs.drop 2)
    let (path, rest) := readPath .file rest
    return make "file" (some (Authority.onDrive authority path)) path false rest
  else
    let (path, rest) := readPath .file cs
    return make "file" (some ⟨"", none, "", none⟩) path false rest

/-- Reads a URL without a host: a path with parts, or one text. -/
def readBare (scheme : String) (cs : List Char) : Url :=
  match cs with
  | '/' :: _ =>
    let (path, rest) := readPath .other cs
    make scheme none path false rest
  | cs =>
    let (text, rest) := breakAt isPathEnd cs
    make scheme none (percentEncode controlSet text) true rest

def isTabOrNewline (c : Char) : Bool :=
  c = '\t' || c = '\n' || c = '\r'

def isEdgeSpace (c : Char) : Bool :=
  c.toNat ≤ 32

/-- Text without controls and spaces at its ends and without tabs and line breaks. -/
def cleanInput (text : String) : List Char :=
  let trimmed := ((text.toList.dropWhile isEdgeSpace).reverse.dropWhile isEdgeSpace).reverse
  trimmed.filter fun c ↦ !isTabOrNewline c

/-- Reads a URL that stands on its own. -/
def parse? [DomainNames] (text : String) : Option Url := do
  let (scheme, rest) ← splitScheme? (cleanInput text)
  match schemeKind scheme with
  | .file => readFile rest
  | .hosted => readHosted scheme (rest.dropWhile (isSlash true))
  | .other =>
    match rest with
    | '/' :: '/' :: rest => readHosted scheme rest
    | rest => some (readBare scheme rest)

def Authority.toText (authority : Authority) : String :=
  let userinfo := authority.username ++ match authority.password with
    | some password => ":" ++ password
    | none => ""
  (if userinfo = "" then "" else userinfo ++ "@") ++ authority.host ++
    match authority.port with
    | some port => ":" ++ toString port
    | none => ""

/-- The written form. A path that begins with two slashes gets a point in front, because it would
be taken for an authority. -/
def toText (url : Url) : String :=
  url.scheme ++ ":" ++
    (match url.authority with
      | some authority => "//" ++ Authority.toText authority
      | none =>
        if !url.isOpaque && url.path.toList.take 2 = ['/', '/'] then "/." else "") ++
    url.path ++ (url.query.map ("?" ++ ·)).getD "" ++ (url.fragment.map ("#" ++ ·)).getD ""

/-- The host, if there is one. -/
def host? (url : Url) : Option String :=
  (url.authority.map Authority.host).filter (· ≠ "")

def username (url : Url) : String :=
  (url.authority.map Authority.username).getD ""

/-- The pieces of the path between its slashes. -/
def pathPieces (url : Url) : List (List Char) :=
  splitOnChar '/' (url.path.toList.drop 1)

/-- The local path of a URL without a host other than this machine. -/
def localPath? (url : Url) : Option String :=
  if url.isOpaque then none
  else if url.path.isEmpty then none
  else
    match url.host? with
    | none | some "localhost" =>
      let path := url.pathPieces.flatMap fun piece ↦
        '/' :: Text.decodeLossy (percentDecode piece)
      let isDrive := 2 < path.length ∧ isDriveLetter (path.drop (path.length - 2))
      some (String.ofList (if isDrive then path ++ ['/'] else path))
    | some _ => none

end Url

end CommitCoordinator
