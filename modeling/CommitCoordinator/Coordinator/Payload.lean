import CommitCoordinator.Catalog.Manifest
import CommitCoordinator.Coordinator.Scan

/-!
# The payload of a commit

A commit sends two payloads to the catalog: the snapshots to append and the manifests that
describe them. Both list the partitions in the same order.
-/

namespace CommitCoordinator

/-- The files found for a partition, with a fresh snapshot. -/
structure PartitionFiles where
  partition : String
  snapshot : Uuid
  files : List ScannedFile
deriving DecidableEq, Repr

/-- What the two phases of a commit send: the request to append, then the manifests. -/
structure Payload where
  request : AppendRequest
  manifests : List Manifest
deriving DecidableEq, Repr

namespace PartitionFiles

/-- The request for the one new snapshot of a partition. -/
def toAppend (table : Table) (part : PartitionFiles) : PartitionAppend :=
  ⟨table.id, part.partition, .append, [part.snapshot]⟩

/-- The manifest of the new snapshot: one added file for each file found, in their order. -/
def toManifest (table : Table) (columns : String) (time : Int64) (part : PartitionFiles) :
    Manifest :=
  let files := part.files.map fun file ↦ DataFile.added file.path file.size columns
  ({ Manifest.empty part.snapshot table.id part.partition with time }).addFiles files

end PartitionFiles

namespace Payload

/-- Both payloads of partitions; one without files gets a manifest without files. -/
def assemble (table : Table) (parts : List PartitionFiles) (columns : String) (time : Int64) :
    Payload :=
  ⟨⟨table, parts.map (·.toAppend table)⟩, parts.map (·.toManifest table columns time)⟩

/-- The new snapshots in the order of the partitions. -/
def snapshots (payload : Payload) : List Uuid :=
  payload.manifests.map Manifest.id

/-- The number of files in all manifests. -/
def fileCount (payload : Payload) : Nat :=
  (payload.manifests.flatMap Manifest.files).length

end Payload

end CommitCoordinator
