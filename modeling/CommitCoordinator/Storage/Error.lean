import CommitCoordinator.Storage.FileSystem
import CommitCoordinator.Text.Utf8

/-!
# Why a listing fails
-/

namespace CommitCoordinator.Storage

open Text

/-- Why a location names no place in an object store, or none that can be used. -/
inductive ObjectStoreError where
  | unknownUrl (url : String)
  | emptySegment (path : String)
  | badSegment (path segment illegal : String)
  | notText (path : String) (fault : Utf8Fault)
  /-- The store needs something that neither the location nor the options give. -/
  | missing (store what : String)
  | unknownPattern (store url : String)
  /-- What the store itself says. -/
  | answered (text : String)
deriving DecidableEq, Repr

/-- The text of a failure of the object store. -/
def ObjectStoreError.message : ObjectStoreError → String
  | .unknownUrl url => s!"Generic URL error: Unable to recognise URL \"{url}\""
  | .emptySegment path => s!"Generic URL error: Path \"{path}\" contained empty path segment"
  | .badSegment path segment illegal =>
    s!"Generic URL error: Error parsing Path \"{path}\": Encountered illegal character sequence " ++
      s!"\"{illegal}\" whilst parsing path segment \"{segment}\""
  | .notText path fault =>
    s!"Generic URL error: Path \"{path}\" contained non-unicode characters: {fault.message}"
  | .missing store what => s!"Generic {store} error: {what}"
  | .unknownPattern store url =>
    s!"Generic {store} error: URL did not match any known pattern for scheme: {url}"
  | .answered text => text

/-- The ways in which a directory cannot be listed. -/
inductive StorageError where
  | directoryMissing (path : String)
  | notADirectory (path : String)
  | io (path : String) (cause : OsError)
  | objectStore (cause : ObjectStoreError)
  | invalidUrl (url : String)
  /-- A path that does not lie below the location of its listing. -/
  | outsideLocation (path location : String)
deriving DecidableEq, Repr

namespace StorageError

/-- The text shown for a failed listing. -/
def message : StorageError → String
  | .directoryMissing path => s!"Directory does not exist: {path}"
  | .notADirectory path => s!"Not a directory: {path}"
  | .io path cause => s!"IO error while listing {path}: {cause.message}"
  | .objectStore cause => s!"Storage operation failed: {cause.message}"
  | .invalidUrl url => s!"Invalid storage URL: {url}"
  | .outsideLocation path location => s!"Path {path} is outside storage location {location}"

/-- Whether the listed directory is absent. -/
def isNotFound : StorageError → Bool
  | .directoryMissing _ => true
  | _ => false

end StorageError

end CommitCoordinator.Storage
