import CommitCoordinator.Collection.Sorted
import CommitCoordinator.Storage.Entry
import CommitCoordinator.Storage.ObjectKey

/-!
# Listing an object store

An object store has no directories: a directory is what the keys of some objects begin with, and
one without objects is empty. Directories are exchanged as text below the location of the listing,
whose own key is the root of the listing.
-/

namespace CommitCoordinator.Storage

/-- The objects of a store, their sizes under their keys. -/
abbrev Objects := SortedMap UInt64

/-- The segments of a key below another one, absent if it does not lie there. -/
def segmentsBelow (directory key : List Char) : Option (List (List Char)) :=
  let pieces (cs : List Char) : List (List Char) :=
    if cs = [] then [] else Url.splitOnChar '/' cs
  if directory = [] then some (pieces key)
  else if directory.isPrefixOf key then
    match key.drop directory.length with
    | [] => some []
    | '/' :: rest => some (pieces rest)
    | _ => none
  else none

/-- What lies directly below a key: the keys that further keys lie below, and objects. -/
abbrev Children := List String × List (String × UInt64)

def childKey (directory segment : List Char) : String :=
  String.ofList (if directory = [] then segment else directory ++ '/' :: segment)

/-- The children of a key among objects. -/
def childrenOf (objects : Objects) (directory : String) : Children :=
  let below := objects.entries.filterMap fun (key, size) ↦
    (segmentsBelow directory.toList key.toList).map fun segments ↦ (segments, key, size)
  let directories := below.filterMap fun (segments, _, _) ↦
    match segments with
    | segment :: _ :: _ => some (childKey directory.toList segment)
    | _ => none
  let files := below.filterMap fun (segments, key, size) ↦
    if segments.length = 1 then some (key, size) else none
  ((SortedSet.ofList directories).elements, files)

/-- A listing of the objects below a location. -/
structure ObjectListing where
  /-- The location without slashes at its end. -/
  base : String
  /-- The key of the location. -/
  root : String
deriving DecidableEq, Repr

namespace ObjectListing

/-- A listing of a whole store. -/
def ofBase (base : String) : ObjectListing :=
  ⟨trimTrailingSlashes base, ""⟩

/-- A listing at a location whose key is known. -/
def atKey (location root : String) : ObjectListing :=
  ⟨trimTrailingSlashes location, root⟩

/-- The text of a key below the location for a directory. -/
def keyText (listing : ObjectListing) (directory : String) : Except StorageError String :=
  let outside := .error (.outsideLocation directory listing.base)
  let base := listing.base.toList
  if base.isPrefixOf directory.toList then
    let rest := directory.toList.drop base.length
    if rest = [] ∨ rest.head? = some '/' then
      let rest := String.ofList (dropTrailingSlashes (dropLeadingSlashes rest))
      .ok (if listing.root = "" then rest
        else if rest = "" then listing.root
        else listing.root ++ "/" ++ rest)
    else outside
  else outside

/-- The key that is listed for a directory. -/
def directoryKey (listing : ObjectListing) (directory : String) : Except StorageError String :=
  keyOfText <$> listing.keyText directory

/-- The path of a key in the form of the location. -/
def qualify (listing : ObjectListing) (key : String) : String :=
  let root := listing.root.toList
  let rest := if root ≠ [] ∧ root.isPrefixOf key.toList then
      dropLeadingSlashes (key.toList.drop root.length)
    else if root ≠ [] then dropLeadingSlashes key.toList
    else key.toList
  listing.base ++ "/" ++ String.ofList rest

/-- The entries that children show as, directories first. -/
def entriesOf (listing : ObjectListing) (children : Children) : List Entry :=
  children.1.map (fun key ↦ .dir (listing.qualify key)) ++
    children.2.map (fun (key, size) ↦ .file (listing.qualify key) size)

/-- The entries of a directory. -/
def entries (listing : ObjectListing) (objects : Objects) (directory : String) :
    Except StorageError (List Entry) := do
  return listing.entriesOf (childrenOf objects (← listing.directoryKey directory))

end ObjectListing

end CommitCoordinator.Storage
