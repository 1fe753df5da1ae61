import CommitCoordinator.Checkpoint.Snapshot
import CommitCoordinator.Json.Reader
import CommitCoordinator.Metrics.Monad
import CommitCoordinator.Storage.Replace

/-!
# Stores of checkpoint state

A store keeps one list of snapshots. Storing replaces the list; loading returns the list stored
last, or the empty list before the first store.
-/

namespace CommitCoordinator

open Data Storage

/-- The ways in which checkpoint state cannot be stored or loaded. -/
inductive StateError where
  /-- The stored text is not a list of snapshots. -/
  | decode (path : String) (problem : Problem)
  | io (path : String) (cause : OsError)
deriving DecidableEq, Repr

/-- The text shown for a failed store. -/
def StateError.message : StateError → String
  | .decode path problem => s!"Failed to decode checkpoint state {path}: {Json.describe problem}"
  | .io path cause => s!"Checkpoint state IO error at {path}: {cause.message}"

/-- A place where snapshots survive a failure of the coordinator. -/
structure SnapshotStore (m : Type → Type) where
  load : m (Except StateError (List Snapshot))
  store : List Snapshot → m (Except StateError Unit)

/-- The store in the state of the monad. -/
def memoryStore {m : Type → Type} [Monad m] [MonadStateOf (List Snapshot) m] :
    SnapshotStore m where
  load := do return .ok (← getThe (List Snapshot))
  store snapshots := do
    set snapshots
    return .ok ()

namespace FileStore

variable {m : Type → Type} [Monad m] [MonadFileSystem m] [MonadMetrics m]

/-- A fault of the file as a failure of the store. -/
def ofFault (fault : FileFault) : StateError :=
  .io fault.path fault.cause

/-- The snapshots that the bytes of a file hold. -/
def decode (path : String) (content : List UInt8) : Except StateError (List Snapshot) :=
  (Json.decodeBytes (.list Snapshot.codec) content).mapError (.decode path)

/-- The bytes of the file that holds a list of snapshots. -/
def encode (snapshots : List Snapshot) : List UInt8 :=
  (Json.encodePretty (.list Snapshot.codec) snapshots).toUTF8.toList

/-- The snapshots in the file; none if there is no file. -/
def load (path : String) : m (Except StateError (List Snapshot)) :=
  ExceptT.run do
    match ← (readIfPresent path).adapt ofFault with
    | some content => ExceptT.mk (pure (decode path content))
    | none => return []

/-- Replaces the file and records the size of its contents. -/
def store (path : String) (snapshots : List Snapshot) : m (Except StateError Unit) := do
  let content := encode snapshots
  emit (.checkpointStateSize content.length)
  ((replaceFile path content).adapt ofFault).run

end FileStore

/-- The store in the file at a path. -/
def fileStore {m : Type → Type} [Monad m] [MonadFileSystem m] [MonadMetrics m] (path : String) :
    SnapshotStore m :=
  ⟨FileStore.load path, FileStore.store path⟩

end CommitCoordinator
