import CommitCoordinator.Checkpoint.Snapshot
import CommitCoordinator.Collection.Sequenced

/-!
# Pending partitions

Partitions wait for a commit in the order in which they were first observed. A commit drains all
of them; when it never reaches the catalog they go back in front of those observed since.
-/

namespace CommitCoordinator

/-- The partitions that wait for a commit. -/
structure Pending where
  partitions : SequencedSet String
  /-- The watermark of the snapshot that the partitions were restored from. -/
  restoredWatermark : Option Int64
deriving DecidableEq

namespace Pending

/-- Nothing pending and nothing restored. -/
def empty : Pending :=
  ⟨.empty, none⟩

instance : Inhabited Pending := ⟨empty⟩

/-- Takes up the partitions of the last of the stored snapshots. -/
def restore (stored : List Snapshot) : Pending :=
  match stored.getLast? with
  | some snapshot => ⟨.ofList snapshot.pending, some snapshot.watermark⟩
  | none => empty

/-- The pending partitions in the order of their observation. -/
def toList (pending : Pending) : List String :=
  pending.partitions.elements

/-- The number of pending partitions. -/
def size (pending : Pending) : Nat :=
  pending.partitions.size

/-- Whether a partition is pending. -/
def contains (pending : Pending) (partition : String) : Bool :=
  pending.partitions.contains partition

/-- Adds a partition behind the others unless it is pending already. -/
def observe (pending : Pending) (partition : String) : Pending :=
  { pending with partitions := pending.partitions.insert partition }

/-- Adds partitions one after the other. -/
def observeAll (pending : Pending) (partitions : List String) : Pending :=
  { pending with partitions := pending.partitions.insertAll partitions }

/-- Takes all partitions out. -/
def drain (pending : Pending) : List String × Pending :=
  (pending.toList, { pending with partitions := .empty })

/-- Puts partitions back in front of those that are pending. -/
def giveBack (pending : Pending) (partitions : List String) : Pending :=
  { pending with partitions := (SequencedSet.ofList partitions).insertAll pending.toList }

/-- The snapshot of the pending partitions for a checkpoint. -/
def snapshot (pending : Pending) (checkpoint watermark : Int64) : Snapshot :=
  .take checkpoint watermark pending.toList

end Pending

end CommitCoordinator
