import CommitCoordinator.Storage.Error
import CommitCoordinator.Url.Basic

/-!
# Keys of an object store

A key is a list of segments between slashes. Text becomes a key by escaping what a segment cannot
hold and dropping empty segments; the path of a URL becomes one by resolving its escapes, and is
refused if that leaves something that a segment cannot be.
-/

namespace CommitCoordinator.Storage

open Text

def isReservedInKey : Url.EscapeSet := fun c ↦
  Url.isControl c || c = '\\' || c = '{' || c = '^' || c = '}' || c = '%' || c = '`' || c = ']' ||
    c = '"' || c = '>' || c = '[' || c = '~' || c = '<' || c = '#' || c = '|' || c = '*' || c = '?'

/-- A segment without what a segment cannot hold. -/
def keySegment (segment : List Char) : List Char :=
  if segment = ['.'] then "%2E".toList
  else if segment = ['.', '.'] then "%2E%2E".toList
  else Url.percentEncode isReservedInKey segment

/-- The key that text stands for. -/
def keyOfText (text : String) : String :=
  let segments := (Url.splitOnChar '/' text.toList).filter (· ≠ [])
  String.ofList (List.intercalate ['/'] (segments.map keySegment))

/-- What makes a segment unusable. -/
def illegalIn? (segment : List Char) : Option (List Char) :=
  if segment = ['.'] ∨ segment = ['.', '.'] then some segment
  else (segment.find? Url.isControl).map ([·])

/-- Checks the segments of a path in order. -/
def checkSegments (path : String) : List (List Char) → Except ObjectStoreError Unit
  | [] => .ok ()
  | segment :: rest =>
    if segment = [] then .error (.emptySegment path)
    else
      match illegalIn? segment with
      | some illegal =>
        .error (.badSegment path (String.ofList segment) (String.ofList illegal))
      | none => checkSegments path rest

/-- Removes one slash at the end. -/
def dropOneTrailing (cs : List Char) : List Char :=
  if cs.getLast? = some '/' then cs.dropLast else cs

/-- The key of a path whose escapes have been resolved. -/
def keyOfPath (path : String) : Except ObjectStoreError String := do
  let stripped := match path.toList with
    | '/' :: rest => rest
    | cs => cs
  if stripped = [] then return ""
  else
    let inner := dropOneTrailing stripped
    checkSegments path (Url.splitOnChar '/' inner)
    return String.ofList inner

/-- The key of the path of a URL. -/
def keyOfUrlPath (path : String) : Except ObjectStoreError String :=
  let bytes := Url.percentDecode path.toList
  match utf8Fault? bytes with
  | some fault => .error (.notText path fault)
  | none => keyOfPath (String.ofList (decodeLossy bytes))

end CommitCoordinator.Storage
