import CommitCoordinator.Catalog.Client
import CommitCoordinator.Checkpoint.Store
import CommitCoordinator.Quorum
import CommitCoordinator.Storage.Error

/-!
# Why a coordinator fails
-/

namespace CommitCoordinator

open Storage

/-- The ways in which a coordinator refuses an event or fails to commit. -/
inductive CommitError where
  | notInitialized
  | alreadyInitialized
  | quorum (cause : QuorumError)
  /-- The table could not be looked up. -/
  | catalog (cause : CatalogError)
  | listing (partition : String) (cause : StorageError)
  /-- The catalog refused to append the snapshots. -/
  | rejected (table : String) (checkpoint : Int64) (partitions : Nat)
  /-- The snapshots could not be appended. -/
  | append (cause : CatalogError)
  /-- The snapshots were appended but their manifests could not be stored. -/
  | manifest (cause : CatalogError)
  | state (cause : StateError)
deriving DecidableEq, Repr

namespace CommitError

/-- The text shown for a refused event or a failed commit. -/
def message : CommitError → String
  | .notInitialized => "Committer used before initialize"
  | .alreadyInitialized => "Committer already initialized"
  | .quorum cause => s!"Quorum inconsistency: {cause.message}"
  | .catalog cause => s!"Catalog error: {cause.message}"
  | .listing partition cause => s!"Failed to list partition {partition}: {cause.message}"
  | .rejected table checkpoint partitions =>
    s!"Catalog rejected append commit for table {table} at checkpoint {checkpoint} " ++
      s!"({partitions} partitions)"
  | .append cause => s!"Snapshot commit failed: {cause.message}"
  | .manifest cause => s!"Manifest commit failed after snapshots were appended: {cause.message}"
  | .state cause => s!"Checkpoint state error: {cause.message}"

/-- Whether the catalog does not know the table. -/
def isTableNotFound : CommitError → Bool
  | .catalog (.tableNotFound _) => true
  | _ => false

end CommitError

end CommitCoordinator
