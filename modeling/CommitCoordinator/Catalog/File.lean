import CommitCoordinator.Catalog.Client
import CommitCoordinator.Storage.Replace

/-!
# Catalogs in a file

The catalog is one document in a file. A change reads the document, changes it and replaces the
file; a file that is not there holds the empty catalog, and a refused change leaves it alone.
-/

namespace CommitCoordinator.FileCatalog

open Storage

variable {m : Type → Type} [Monad m] [MonadFileSystem m]

/-- A fault of the file as a failure of the catalog. -/
def ofFault (fault : FileFault) : CatalogError :=
  .io fault.path fault.cause

/-- The catalog that the bytes of a file hold. -/
def decode (path : String) (content : List UInt8) : Except CatalogError Catalog :=
  (Json.decodeBytes Catalog.codec content).mapError (.decode path)

/-- The bytes of the file that holds a catalog. -/
def encode (catalog : Catalog) : List UInt8 :=
  (Json.encodePretty Catalog.codec catalog).toUTF8.toList

/-- The catalog in the file; the empty one if there is no file. -/
def read (path : String) : ExceptT CatalogError m Catalog := do
  match ← (readIfPresent path).adapt ofFault with
  | some content => ExceptT.mk (pure (decode path content))
  | none => return .empty

/-- Replaces the file by one that holds the catalog. -/
def write (path : String) (catalog : Catalog) : ExceptT CatalogError m Unit :=
  (replaceFile path (encode catalog)).adapt ofFault

/-- The present contents. -/
def document (path : String) : m (Except CatalogError Catalog) :=
  (read path).run

/-- Adds a table; the file stays as it is if the name is taken. -/
def register (path : String) (table : Table) : m (Except CatalogError Unit) :=
  ExceptT.run do
    let catalog ← read path
    let catalog ← ExceptT.mk (pure (catalog.register table))
    write path catalog

/-- Registers a table unless its name is taken, and returns the table of that name. -/
def ensure (path : String) (table : Table) : m (Except CatalogError Table) :=
  ExceptT.run do
    let catalog ← read path
    match catalog.table? table.name with
    | some existing => return existing
    | none =>
      let catalog ← ExceptT.mk (pure (catalog.register table))
      write path catalog
      return table

/-- The table of a name in the catalog of the file. -/
def lookup (path name : String) : m (Except CatalogError Table) :=
  ExceptT.run do
    let catalog ← read path
    ExceptT.mk (pure (catalog.lookup name))

/-- Appends snapshots; the file stays as it is if the request is refused. -/
def append (path : String) (request : AppendRequest) (keep : Bool) (mode : CommitMode) :
    m (Except CatalogError Bool) :=
  ExceptT.run do
    let catalog ← read path
    match catalog.append? request keep mode with
    | some catalog =>
      write path catalog
      return true
    | none => return false

/-- Stores manifests under their snapshots. -/
def insert (path : String) (manifests : List Manifest) : m (Except CatalogError Unit) :=
  ExceptT.run do
    let catalog ← read path
    write path (catalog.insertManifests manifests)

/-- The operations on the file at a path. -/
def client (path : String) : CatalogClient m :=
  ⟨lookup path, append path, insert path⟩

end CommitCoordinator.FileCatalog
