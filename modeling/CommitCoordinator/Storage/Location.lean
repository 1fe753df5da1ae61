import CommitCoordinator.Collection.Sequenced
import CommitCoordinator.Storage.ObjectListing

/-!
# Where a location lies

A location is a local path or a URL. The scheme of a URL, and for web addresses its host, tell the
kind of store; the path gives the key of the location in its store.
-/

namespace CommitCoordinator.Storage

/-- Kinds of stores that locations can name. -/
inductive StoreKind where
  | local
  | memory
  | amazon
  | google
  | azure
  | web
deriving DecidableEq, Repr

/-- The kind of store of a web address, and whether its path begins with the name of a bucket. -/
def webStoreKind (host : String) : StoreKind × Bool :=
  let endsIn (text : String) : Bool := text.toList.isSuffixOf host.toList
  if endsIn "dfs.core.windows.net" || endsIn "blob.core.windows.net" ||
      endsIn "dfs.fabric.microsoft.com" || endsIn "blob.fabric.microsoft.com" then (.azure, true)
  else if endsIn "amazonaws.com" then (.amazon, "s3".toList.isPrefixOf host.toList)
  else if endsIn "r2.cloudflarestorage.com" then (.amazon, true)
  else (.web, false)

/-- The kind of store of a URL, and whether its path begins with the name of a bucket. -/
def storeKind? (url : Url) : Option (StoreKind × Bool) :=
  match url.host? with
  | none =>
    if url.scheme = "file" then some (.local, false)
    else if url.scheme = "memory" then some (.memory, false)
    else none
  | some host =>
    if url.scheme = "s3" ∨ url.scheme = "s3a" then some (.amazon, false)
    else if url.scheme = "gs" then some (.google, false)
    else if url.scheme = "az" then some (.azure, true)
    else if ["adl", "azure", "abfs", "abfss"].contains url.scheme then some (.azure, false)
    else if url.scheme = "http" then some (.web, false)
    else if url.scheme = "https" then some (webStoreKind host)
    else none

/-- A path without its first segment; empty if nothing follows that. -/
def dropBucket (path : String) : String :=
  match path.toList with
  | '/' :: rest =>
    match rest.dropWhile (· ≠ '/') with
    | _ :: rest => String.ofList rest
    | [] => ""
  | _ => ""

/-- The kind of store that a URL names, and the key of its path there. -/
def resolveUrl (url : Url) : Except ObjectStoreError (StoreKind × String) :=
  match storeKind? url with
  | none => .error (.unknownUrl url.toText)
  | some (kind, hasBucket) => do
    return (kind, ← keyOfUrlPath (if hasBucket then dropBucket url.path else url.path))

/-! ## What a store needs to be opened -/

/-- Options of a store by name. -/
abbrev StoreOptions := SequencedMap String String

/-- The words of a host between points, the last of at most four holding the rest. -/
def hostWords (host : String) : List String :=
  let words := Url.splitOnChar '.' host.toList
  let rest := List.intercalate ['.'] (words.drop 3)
  ((words.take 3) ++ if words.length > 3 then [rest] else []).map String.ofList

/-- Checks that a web address is one of the known forms of a bucket. -/
def checkAmazon (url : Url) : Except ObjectStoreError Unit :=
  if url.scheme ≠ "https" then .ok ()
  else
    match hostWords (url.host?.getD "") with
    | ["s3", _, "amazonaws", "com"] => .ok ()
    | [_, "s3", "amazonaws", "com"] => .ok ()
    | [_, "s3", _, "amazonaws.com"] => .ok ()
    | [_, "r2", "cloudflarestorage", "com"] => .ok ()
    | _ => .error (.unknownPattern "S3" url.toText)

/-- The name before a suffix. -/
def beforeSuffix? (suffix text : String) : Option String :=
  if suffix.toList.isSuffixOf text.toList then
    some (String.ofList (text.toList.take (text.length - suffix.length)))
  else none

def azureSuffixes : List String :=
  [".dfs.core.windows.net", ".blob.core.windows.net", ".dfs.fabric.microsoft.com",
    ".blob.fabric.microsoft.com"]

/-- The container and the account that an address gives. -/
def azureNames (url : Url) : Except ObjectStoreError (Option String × Option String) :=
  let unknown := .error (.unknownPattern "MicrosoftAzure" url.toText)
  let checked (names : Option String × Option String) :
      Except ObjectStoreError (Option String × Option String) :=
    if [names.1, names.2].any fun name ↦ (name.getD "").contains '.' then unknown else .ok names
  let host := url.host?.getD ""
  if url.scheme = "https" then
    match azureSuffixes.findSome? fun suffix ↦ beforeSuffix? suffix host with
    | some account =>
      let container := String.ofList ((url.pathPieces.head?).getD [])
      checked (if container = "" then none else some container, some account)
    | none => unknown
  else if url.scheme = "adl" ∨ url.scheme = "azure" ∨ url.username = "" then
    checked (some host, none)
  else
    match [".dfs.core.windows.net", ".dfs.fabric.microsoft.com"].findSome?
        fun suffix ↦ beforeSuffix? suffix host with
    | some account => checked (some url.username, some account)
    | none => unknown

/-- The options that name an account. -/
def accountOptions : List String :=
  ["account_name", "azure_storage_account_name"]

/-- Checks that the container and the account are known. -/
def checkAzure (url : Url) (options : StoreOptions) : Except ObjectStoreError Unit := do
  let (container, account) ← azureNames url
  let account := account.or (accountOptions.findSome? options.find?)
  if container.isNone then .error (.missing "MicrosoftAzure" "Container name must be specified")
  else if account.isNone then .error (.missing "MicrosoftAzure" "Account must be specified")
  else .ok ()

/-- Checks that a store of a kind can be opened. -/
def checkStore (kind : StoreKind) (url : Url) (options : StoreOptions) :
    Except ObjectStoreError Unit :=
  match kind with
  | .amazon => checkAmazon url
  | .azure => checkAzure url options
  | _ => .ok ()

/-! ## Locations -/

/-- What a store outside of the program is opened with. -/
structure StoreAddress where
  kind : StoreKind
  url : Url
  options : StoreOptions
deriving DecidableEq

/-- How the directories of a location are listed. -/
inductive Location where
  /-- From the local disk. -/
  | disk
  /-- From a store of its own in memory. -/
  | memory (listing : ObjectListing)
  | remote (address : StoreAddress) (listing : ObjectListing)
deriving DecidableEq

/-- A listing of a given store at a location. -/
def ObjectListing.atLocation [Url.DomainNames] (location : String) :
    Except StorageError ObjectListing :=
  match Url.parse? location with
  | none => .error (.invalidUrl location)
  | some url =>
    match resolveUrl url with
    | .ok (_, root) => .ok (.atKey location root)
    | .error e => .error (.objectStore e)

/-- Whether a scheme names a store; one letter is a drive. -/
def namesStore (url : Url) : Bool :=
  url.scheme ≠ "file" && 1 < url.scheme.length

namespace Location

/-- The listing of a location that is a URL, if its store can be opened. -/
def ofUrl (location : String) (url : Url) (options : StoreOptions) :
    Except ObjectStoreError Location := do
  let (kind, root) ← resolveUrl url
  checkStore kind url options
  let listing := ObjectListing.atKey location root
  return if kind = .memory then .memory listing else .remote ⟨kind, url, options⟩ listing

/-- Finds out how a location is listed. -/
def of [Url.DomainNames] (location : String) (options : StoreOptions) :
    Except StorageError Location :=
  match Url.parse? location with
  | none => .ok .disk
  | some url =>
    if namesStore url then (ofUrl location url options).mapError .objectStore
    else .ok .disk

/-- The name of the back end in metrics. -/
def backend : Location → String
  | .disk => "local"
  | _ => "object_store"

end Location

end CommitCoordinator.Storage
