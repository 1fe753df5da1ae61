import CommitCoordinator.Config.SinkOptions
import CommitCoordinator.Coordinator.Error
import CommitCoordinator.Coordinator.Payload
import CommitCoordinator.Report

/-!
# Attempts to commit

An attempt looks the table up, lists every drained partition, asks the catalog to append one new
snapshot to each, and only then stores the manifests. It ends at the first step that fails.
-/

namespace CommitCoordinator

open Storage

/-- A monad that draws identifiers, each a new one. -/
class MonadFresh (m : Type → Type) where
  freshId : m Uuid

/-- A monad that knows the time in milliseconds since the beginning of 1970. -/
class MonadClock (m : Type → Type) where
  currentTime : m Int64

instance {σ : Type} {m : Type → Type} [Monad m] [MonadFresh m] : MonadFresh (StateT σ m) where
  freshId := StateT.lift MonadFresh.freshId

instance {σ : Type} {m : Type → Type} [Monad m] [MonadClock m] : MonadClock (StateT σ m) where
  currentTime := StateT.lift MonadClock.currentTime

export MonadFresh (freshId)
export MonadClock (currentTime)

/-- What a coordinator works with. -/
structure Services (m : Type → Type) where
  catalog : CatalogClient m
  listing : Listing m

/-- How an attempt ended. -/
inductive Attempt where
  | lookupFailed (cause : CatalogError)
  | listingFailed (partition : String) (cause : StorageError)
  | rejected
  | appendFailed (cause : CatalogError)
  /-- The snapshots were appended, the manifests were not stored. -/
  | insertFailed (cause : CatalogError)
  | committed (payload : Payload)
deriving DecidableEq, Repr

namespace Attempt

/-- Whether the catalog appended the snapshots. -/
def isAppended : Attempt → Bool
  | .insertFailed _ => true
  | .committed _ => true
  | _ => false

/-- The events of an attempt for a table. -/
def events (table : String) : Attempt → List MetricEvent
  | .lookupFailed _ => [.commitFailed table .lookup]
  | .listingFailed _ _ => [.commitFailed table .listing]
  | .rejected => [.commitRejected table]
  | .appendFailed _ => [.commitFailed table .snapshot]
  | .insertFailed _ => [.commitFailed table .manifest]
  | .committed payload =>
    [.commitCompleted table, .partitionsCommitted table payload.manifests.length,
      .filesCommitted table payload.fileCount]

variable {m : Type → Type} [Monad m] [MonadFresh m] [MonadClock m]

/-- Finds the files of each partition in order, up to the first that cannot be listed. -/
def scanAll (listing : Listing m) (options : SinkOptions) (fileMark : String) :
    List String → m (Except Attempt (List PartitionFiles))
  | [] => return .ok []
  | partition :: rest => do
    match ← scan listing options.openMark (joinPath options.location partition) fileMark with
    | .error cause => return .error (.listingFailed partition cause)
    | .ok files =>
      let snapshot ← freshId
      return (← scanAll listing options fileMark rest).map (⟨partition, snapshot, files⟩ :: ·)

/-- Looks the table up and assembles the payload. -/
def prepare (services : Services m) (options : SinkOptions) (report : Report)
    (partitions : List String) : m (Except Attempt Payload) := do
  match ← services.catalog.lookup report.table with
  | .error cause => return .error (.lookupFailed cause)
  | .ok table =>
    match ← scanAll services.listing options report.fileMark partitions with
    | .error attempt => return .error attempt
    | .ok parts => return .ok (.assemble table parts options.columns (← currentTime))

/-- Appends the snapshots of a payload and, if they are accepted, stores the manifests. -/
def send (catalog : CatalogClient m) (payload : Payload) : m Attempt := do
  match ← catalog.append payload.request true .append with
  | .error cause => return .appendFailed cause
  | .ok false => return .rejected
  | .ok true =>
    match ← catalog.insert payload.manifests with
    | .error cause => return .insertFailed cause
    | .ok () => return .committed payload

/-- Attempts to commit partitions on behalf of a report. -/
def run (services : Services m) (options : SinkOptions) (report : Report)
    (partitions : List String) : m Attempt := do
  match ← prepare services options report partitions with
  | .error attempt => return attempt
  | .ok payload => send services.catalog payload

end Attempt

end CommitCoordinator
