import CommitCoordinator.Catalog.Table

/-!
# What a commit sends to the catalog

A commit adds one snapshot to each of its partitions. The append request carries the snapshot
identifiers; a manifest lists the files of one snapshot under the same identifier.
-/

namespace CommitCoordinator

open Data

/-- How a snapshot changes its partition. -/
inductive CommitMode where
  | append
deriving DecidableEq, Repr, Inhabited

def CommitMode.name : CommitMode → String
  | .append => "append"

def CommitMode.codec : Codec CommitMode :=
  .variant [("append", .append)] CommitMode.name

/-- What a manifest does with a file. -/
inductive FileAction where
  | add
deriving DecidableEq, Repr, Inhabited

def FileAction.name : FileAction → String
  | .add => "add"

def FileAction.codec : Codec FileAction :=
  .variant [("add", .add)] FileAction.name

/-- A file of a snapshot. -/
structure DataFile where
  path : String
  size : UInt64
  action : FileAction
  /-- The columns in the file, separated by commas. -/
  columns : String
deriving DecidableEq, Repr

namespace DataFile

/-- A file that a snapshot adds. -/
def added (path : String) (size : UInt64) (columns : String) : DataFile :=
  ⟨path, size, .add, columns⟩

def fields : Fields [String, UInt64, FileAction, String] :=
  .cons (.required "path" .text) <|
  .cons (.required "size" .uint64) <|
  .cons (.required "op" FileAction.codec) <|
  .cons (.required "exist_cols" .text) .nil

def codec : Codec DataFile :=
  .record ⟨recordTitle "FileOp", fields, false⟩
    (fun f ↦ (f.path, f.size, f.action, f.columns, ()))
    (fun (path, size, action, columns, ()) ↦ ⟨path, size, action, columns⟩)

end DataFile

/-- The files of one snapshot of a partition. -/
structure Manifest where
  /-- The snapshot that the manifest describes. -/
  id : Uuid
  tableId : String
  partition : String
  mode : CommitMode
  /-- Milliseconds since the beginning of 1970. -/
  time : Int64
  files : List DataFile
deriving DecidableEq, Repr

namespace Manifest

/-- The manifest of a snapshot without files. -/
def empty (id : Uuid) (tableId partition : String) : Manifest :=
  ⟨id, tableId, partition, .append, 0, []⟩

/-- Adds files behind those already listed. -/
def addFiles (manifest : Manifest) (files : List DataFile) : Manifest :=
  { manifest with files := manifest.files ++ files }

def fields : Fields [Uuid, String, String, CommitMode, Int64, List DataFile] :=
  .cons (.required "commit_id" .uuid) <|
  .cons (.required "table_id" .text) <|
  .cons (.required "partition_desc" .text) <|
  .cons (.required "commit_op" CommitMode.codec) <|
  .cons (.required "timestamp" .int64) <|
  .cons (.required "file_ops" (.list DataFile.codec)) .nil

def codec : Codec Manifest :=
  .record ⟨recordTitle "DataCommitInfo", fields, false⟩
    (fun m ↦ (m.id, m.tableId, m.partition, m.mode, m.time, m.files, ()))
    (fun (id, tableId, partition, mode, time, files, ()) ↦
      ⟨id, tableId, partition, mode, time, files⟩)

end Manifest

/-- The snapshots that one partition gains. -/
structure PartitionAppend where
  tableId : String
  partition : String
  mode : CommitMode
  snapshots : List Uuid
deriving DecidableEq, Repr

namespace PartitionAppend

def fields : Fields [String, String, CommitMode, List Uuid] :=
  .cons (.required "table_id" .text) <|
  .cons (.required "partition_desc" .text) <|
  .cons (.required "commit_op" CommitMode.codec) <|
  .cons (.required "snapshot" (.list .uuid)) .nil

def codec : Codec PartitionAppend :=
  .record ⟨recordTitle "PartitionInfo", fields, false⟩
    (fun p ↦ (p.tableId, p.partition, p.mode, p.snapshots, ()))
    (fun (tableId, partition, mode, snapshots, ()) ↦ ⟨tableId, partition, mode, snapshots⟩)

end PartitionAppend

/-- The snapshots that partitions of a table gain together. -/
structure AppendRequest where
  table : Table
  partitions : List PartitionAppend
deriving DecidableEq, Repr

namespace AppendRequest

def fields : Fields [Table, List PartitionAppend] :=
  .cons (.required "table_info" Table.codec) <|
  .cons (.required "partitions" (.list PartitionAppend.codec)) .nil

def codec : Codec AppendRequest :=
  .record ⟨recordTitle "MetaInfo", fields, false⟩
    (fun r ↦ (r.table, r.partitions, ()))
    (fun (table, partitions, ()) ↦ ⟨table, partitions⟩)

end AppendRequest

end CommitCoordinator
