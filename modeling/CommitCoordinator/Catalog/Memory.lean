import CommitCoordinator.Catalog.Client

/-!
# Catalogs in memory

The catalog is part of the state of the monad; every operation is one step of it.
-/

namespace CommitCoordinator.MemoryCatalog

variable {m : Type → Type} [Monad m] [MonadStateOf Catalog m]

/-- The table of a name. -/
def lookup (name : String) : m (Except CatalogError Table) := do
  return (← getThe Catalog).lookup name

/-- Adds a table unless its name is taken. -/
def register (table : Table) : m (Except CatalogError Unit) := do
  match (← getThe Catalog).register table with
  | .ok catalog =>
    set catalog
    return .ok ()
  | .error e => return .error e

/-- Appends snapshots unless the catalog refuses the request. -/
def append (request : AppendRequest) (keep : Bool) (mode : CommitMode) :
    m (Except CatalogError Bool) := do
  match (← getThe Catalog).append? request keep mode with
  | some catalog =>
    set catalog
    return .ok true
  | none => return .ok false

/-- Stores manifests under their snapshots. -/
def insert (manifests : List Manifest) : m (Except CatalogError Unit) := do
  modifyThe Catalog (·.insertManifests manifests)
  return .ok ()

/-- The operations on the catalog in the state. -/
def client : CatalogClient m :=
  ⟨lookup, append, insert⟩

end CommitCoordinator.MemoryCatalog
