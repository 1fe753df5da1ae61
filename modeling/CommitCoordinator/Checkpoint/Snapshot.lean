import CommitCoordinator.Data.Record

/-!
# Trigger snapshots

At a checkpoint the partitions that still wait for a commit are written down with the watermark,
so that a coordinator can take them up again after a failure.
-/

namespace CommitCoordinator

open Data

/-- The partitions that wait for a commit at a checkpoint. -/
structure Snapshot where
  schemaVersion : UInt32
  checkpoint : Int64
  watermark : Int64
  /-- Partitions in the order in which they were first observed. -/
  pending : List String
deriving DecidableEq, Repr

namespace Snapshot

/-- The version of the written form. -/
def currentSchema : UInt32 := 1

/-- A snapshot in the current written form. -/
def take (checkpoint watermark : Int64) (pending : List String) : Snapshot :=
  ⟨currentSchema, checkpoint, watermark, pending⟩

def fields : Fields [UInt32, Int64, Int64, List String] :=
  .cons (.defaulted "schema_version" .uint32 currentSchema) <|
  .cons (.required "checkpoint_id" .int64) <|
  .cons (.required "watermark" .int64) <|
  .cons (.required "pending" (.list .text)) .nil

def codec : Codec Snapshot :=
  .record ⟨recordTitle "TriggerState", fields, false⟩
    (fun s ↦ (s.schemaVersion, s.checkpoint, s.watermark, s.pending, ()))
    (fun (schemaVersion, checkpoint, watermark, pending, ()) ↦
      ⟨schemaVersion, checkpoint, watermark, pending⟩)

end Snapshot

end CommitCoordinator
