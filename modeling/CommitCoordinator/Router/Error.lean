import CommitCoordinator.Config.Error
import CommitCoordinator.Coordinator.Error

/-!
# Why a run fails
-/

namespace CommitCoordinator

open Data Storage

/-- The ways in which a run fails. -/
inductive RunError where
  | config (cause : ConfigError)
  /-- The address for metrics is no socket address. -/
  | badAddress
  | commit (table : TableKey) (cause : CommitError)
  | catalogSetup (cause : CatalogError)
  | unreadableEvents (line : Nat) (cause : OsError)
  /-- A line of the events is not UTF-8. -/
  | eventsNotText (line : Nat)
  | badEvent (line : Nat) (problem : Problem)
  | storageSetup (table : TableKey) (cause : StorageError)
  | duplicateTable (name : String)
  | unknownTable (name : String)
deriving DecidableEq, Repr

namespace RunError

/-- The complaint about an address for metrics. -/
def addressMessage : String :=
  "Failed to parse metrics address: invalid socket address syntax"

/-- The text shown for a failed run. -/
def message : RunError → String
  | .config cause => s!"Configuration error: {cause.message}"
  | .badAddress => "Metrics error: " ++ addressMessage
  | .commit table cause => s!"Table {table.text}: {cause.message}"
  | .catalogSetup cause => s!"Catalog setup failed: {cause.message}"
  | .unreadableEvents line cause => s!"Failed to read events at line {line}: {cause.message}"
  | .eventsNotText line => s!"Failed to read events at line {line}: <invalid UTF-8>"
  | .badEvent line problem =>
    s!"Failed to parse event at line {line}: {Json.describe problem}"
  | .storageSetup table cause => s!"Table {table.text}: storage setup failed: {cause.message}"
  | .duplicateTable name => s!"Catalog table '{name}' is configured more than once"
  | .unknownTable name => s!"No table configured for record with table_name '{name}'"

end RunError

end CommitCoordinator
