import CommitCoordinator.Catalog.Manifest

/-!
# The contents of a catalog

A catalog knows tables by name, the chain of snapshots of each partition, and the manifests that
describe snapshots. Appending checks the whole request before it changes anything.
-/

namespace CommitCoordinator

open Data

/-- The present state of a partition. -/
structure PartitionVersion where
  /-- Zero for the first append and one more for each later one. -/
  version : Int64
  mode : CommitMode
  /-- The snapshots of the partition, the oldest first. -/
  snapshots : List Uuid
deriving DecidableEq, Repr

namespace PartitionVersion

def fields : Fields [Int64, CommitMode, List Uuid] :=
  .cons (.required "version" .int64) <|
  .cons (.required "commit_op" CommitMode.codec) <|
  .cons (.required "snapshot" (.list .uuid)) .nil

def codec : Codec PartitionVersion :=
  .record ⟨recordTitle "PartitionVersion", fields, false⟩
    (fun v ↦ (v.version, v.mode, v.snapshots, ()))
    (fun (version, mode, snapshots, ()) ↦ ⟨version, mode, snapshots⟩)

/-- The version after further snapshots, which come behind the present ones or replace them. -/
def next (current : PartitionVersion) (keep : Bool) (mode : CommitMode)
    (snapshots : List Uuid) : PartitionVersion :=
  ⟨current.version + 1, mode, (if keep then current.snapshots else []) ++ snapshots⟩

end PartitionVersion

/-- The tables, partition versions and manifests of a catalog. -/
structure Catalog where
  /-- Tables under their names. -/
  tables : SequencedMap String Table
  /-- Partition versions under the identifier of the table and the name of the partition. -/
  partitions : SortedMap (SortedMap PartitionVersion)
  /-- Manifests under their snapshots. -/
  manifests : SequencedMap Uuid Manifest
deriving DecidableEq

namespace Catalog

def empty : Catalog :=
  ⟨.empty, .empty, .empty⟩

instance : Inhabited Catalog := ⟨empty⟩

def fields : Fields [SequencedMap String Table, SortedMap (SortedMap PartitionVersion),
    SequencedMap Uuid Manifest] :=
  .cons (.defaulted "tables" (.sequencedMap id .ok Table.codec) .empty) <|
  .cons (.defaulted "partitions" (.sortedMap (.sortedMap PartitionVersion.codec)) .empty) <|
  .cons (.defaulted "data_commits"
    (.sequencedMap Uuid.hyphenated uuidOfText Manifest.codec) .empty) .nil

def codec : Codec Catalog :=
  .record ⟨recordTitle "CatalogDocument", fields, false⟩
    (fun c ↦ (c.tables, c.partitions, c.manifests, ()))
    (fun (tables, partitions, manifests, ()) ↦ ⟨tables, partitions, manifests⟩)

/-- The table of a name. -/
def table? (catalog : Catalog) (name : String) : Option Table :=
  catalog.tables.find? name

/-- Adds a table unless its name is taken. -/
def register? (catalog : Catalog) (table : Table) : Option Catalog :=
  if catalog.tables.contains table.name then none
  else some { catalog with tables := catalog.tables.insert table.name table }

/-- The partition versions of a table, none before its first append. -/
def versions (catalog : Catalog) (tableId : String) : SortedMap PartitionVersion :=
  (catalog.partitions.find? tableId).getD .empty

/-- The current version of a partition. -/
def version? (catalog : Catalog) (tableId partition : String) : Option PartitionVersion :=
  (catalog.partitions.find? tableId).bind (·.find? partition)

/-- The snapshots of a partition, the oldest first. -/
def chain (catalog : Catalog) (tableId partition : String) : List Uuid :=
  ((catalog.version? tableId partition).map PartitionVersion.snapshots).getD []

/-- Whether some table has the identifier. -/
def knowsTableId (catalog : Catalog) (tableId : String) : Bool :=
  catalog.tables.values.any fun table ↦ table.id = tableId

/-- Whether a partition of a request belongs to the table and brings only new snapshots. -/
def admitsPartition (catalog : Catalog) (tableId : String) (part : PartitionAppend) : Bool :=
  part.tableId = tableId &&
    part.snapshots.all fun id ↦ !(catalog.chain tableId part.partition).contains id

/-- Whether a request names a known table, and each of its partitions once and with new
snapshots. -/
def admits (catalog : Catalog) (request : AppendRequest) : Bool :=
  catalog.knowsTableId request.table.id &&
    request.partitions.all (catalog.admitsPartition request.table.id) &&
    decide (request.partitions.map PartitionAppend.partition).Nodup

/-- Advances the version of one partition. -/
def advance (keep : Bool) (mode : CommitMode) (versions : SortedMap PartitionVersion)
    (part : PartitionAppend) : SortedMap PartitionVersion :=
  versions.insert part.partition <|
    match versions.find? part.partition with
    | some current => current.next keep mode part.snapshots
    | none => ⟨0, mode, part.snapshots⟩

/-- Adds the snapshots of a request to their partitions, or refuses the request as a whole.
With `keep` the present snapshots stay in front of the new ones. -/
def append? (catalog : Catalog) (request : AppendRequest) (keep : Bool) (mode : CommitMode) :
    Option Catalog :=
  if catalog.admits request then
    let versions := request.partitions.foldl (advance keep mode) (catalog.versions request.table.id)
    some { catalog with partitions := catalog.partitions.insert request.table.id versions }
  else none

/-- Stores manifests under their snapshots; a later one replaces an earlier one. -/
def insertManifests (catalog : Catalog) (manifests : List Manifest) : Catalog :=
  { catalog with
    manifests := manifests.foldl (fun map manifest ↦ map.insert manifest.id manifest)
      catalog.manifests }

/-- The manifest of a snapshot. -/
def manifest? (catalog : Catalog) (id : Uuid) : Option Manifest :=
  catalog.manifests.find? id

/-- The manifests of a partition in the order in which their snapshots first got one. -/
def manifestsOf (catalog : Catalog) (tableId partition : String) : List Manifest :=
  catalog.manifests.values.filter fun manifest ↦
    manifest.tableId = tableId && manifest.partition = partition

/-- The snapshots of a partition that no manifest describes. -/
def undescribed (catalog : Catalog) (tableId partition : String) : List Uuid :=
  (catalog.chain tableId partition).filter fun id ↦ !catalog.manifests.contains id

end Catalog

end CommitCoordinator
