import CommitCoordinator.Catalog.Document
import CommitCoordinator.Json.Reader
import CommitCoordinator.Storage.FileSystem

/-!
# Catalog clients

A coordinator uses three operations of a catalog: it looks up a table, asks for snapshots to be
appended, and stores the manifests of snapshots that were appended.
-/

namespace CommitCoordinator

open Data Storage

/-- The ways in which an operation of a catalog fails. -/
inductive CatalogError where
  | tableNotFound (name : String)
  | tableExists (name : String)
  /-- The stored document is not one of a catalog. -/
  | decode (path : String) (problem : Problem)
  | io (path : String) (cause : OsError)
deriving DecidableEq, Repr

/-- The text shown for a failed operation. -/
def CatalogError.message : CatalogError → String
  | .tableNotFound name => s!"Table not found in catalog: {name}"
  | .tableExists name => s!"Table already registered in catalog: {name}"
  | .decode path problem =>
    s!"Failed to decode catalog document {path}: {Json.describe problem}"
  | .io path cause => s!"Catalog IO error at {path}: {cause.message}"

/-- The operations of a catalog that a commit needs. -/
structure CatalogClient (m : Type → Type) where
  lookup : String → m (Except CatalogError Table)
  /-- Appends snapshots; the answer tells whether the catalog accepted the request. With the flag
  the present snapshots of a partition stay in front of the new ones. -/
  append : AppendRequest → (keep : Bool) → CommitMode → m (Except CatalogError Bool)
  insert : List Manifest → m (Except CatalogError Unit)

namespace Catalog

/-- The table of a name, or the reason why there is none. -/
def lookup (catalog : Catalog) (name : String) : Except CatalogError Table :=
  match catalog.table? name with
  | some table => .ok table
  | none => .error (.tableNotFound name)

/-- The catalog with one more table, or the reason why its name cannot be taken. -/
def register (catalog : Catalog) (table : Table) : Except CatalogError Catalog :=
  match catalog.register? table with
  | some catalog => .ok catalog
  | none => .error (.tableExists table.name)

end Catalog

end CommitCoordinator
