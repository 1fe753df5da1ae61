import CommitCoordinator.Metrics.Monad
import CommitCoordinator.Storage.FileName
import CommitCoordinator.Storage.Location

/-!
# Listing directories

A listing shows one directory at a time. Local paths and `file:` URLs are listed from disk, where
entries keep the form of the directory they were found in. Stores outside of the program are asked
for what lies below a key.
-/

namespace CommitCoordinator.Storage

/-- Lists directories. -/
abbrev Listing (m : Type → Type) := String → m (Except StorageError (List Entry))

/-- The local path of a directory, and whether the directory was given as a URL. -/
def localPath [Url.DomainNames] (directory : String) : Except StorageError (String × Bool) :=
  if "file:".toList.isPrefixOf directory.toList then
    match (Url.parse? directory).bind Url.localPath? with
    | some path => .ok (path, true)
    | none => .error (.invalidUrl directory)
  else .ok (directory, false)

def ofOsError (directory : String) : OsError → StorageError
  | .notFound => .directoryMissing directory
  | .notADirectory => .notADirectory directory
  | cause => .io directory cause

/-- An entry in the form of its directory. -/
def localEntry (directory : String) (isUrl : Bool) (listed : Listed) : Entry :=
  let path := if isUrl then joinPath directory listed.name else childPath directory listed.name
  if listed.isDir then .dir path else .file path listed.size

variable {m : Type → Type} [Monad m]

/-- Lists a directory from disk. -/
def listDisk [Url.DomainNames] [MonadFileSystem m] : Listing m := fun directory ↦ do
  match localPath directory with
  | .error e => return .error e
  | .ok (path, isUrl) =>
    match ← listDir path with
    | .error e => return .error (ofOsError directory e)
    | .ok listed => return .ok (listed.map (localEntry directory isUrl))

/-- Lists a directory of a store whose objects are known. -/
def listObjects (listing : ObjectListing) (objects : Objects) : Listing m := fun directory ↦
  return listing.entries objects directory

/-- Takes note of each listing in the metrics. -/
def measured [MonadMetrics m] (backend : String) (listing : Listing m) : Listing m :=
  fun directory ↦ do
    let result ← listing directory
    match result with
    | .ok _ => emit (.directoryListed backend)
    | .error _ => emit (.directoryListingFailed backend)
    return result

/-- A monad with access to stores outside of the program. -/
class MonadObjectStore (m : Type → Type) where
  /-- What lies directly below a key, or below all keys if the text is empty. -/
  listStore : StoreAddress → String → m (Except ObjectStoreError Children)

export MonadObjectStore (listStore)

/-- Lists a directory of a store outside of the program. -/
def listRemote [MonadObjectStore m] (address : StoreAddress) (listing : ObjectListing) :
    Listing m := fun directory ↦ do
  match listing.directoryKey directory with
  | .error e => return .error e
  | .ok key =>
    return ((← listStore address key).mapError .objectStore).map listing.entriesOf

/-- The listing of a location. A store in memory begins without objects. -/
def Location.listing [Url.DomainNames] [MonadFileSystem m] [MonadObjectStore m] [MonadMetrics m]
    (location : Location) : Listing m :=
  measured location.backend <|
    match location with
    | .disk => listDisk
    | .memory listing => listObjects listing .empty
    | .remote address listing => listRemote address listing

/-- The name of a kind of store in messages. -/
def StoreKind.title : StoreKind → String
  | .local => "LocalFileSystem"
  | .memory => "InMemory"
  | .amazon => "S3"
  | .google => "GCS"
  | .azure => "MicrosoftAzure"
  | .web => "HTTP"

/-- What is said of a store that cannot be reached. -/
def StoreAddress.unreachable (address : StoreAddress) : ObjectStoreError :=
  .answered s!"Generic {address.kind.title} error: store is not reachable"

end CommitCoordinator.Storage
