import CommitCoordinator.Proofs.Failover.Restored
import CommitCoordinator.Router.Basic

/-!
# Checkpoints on a machine

A checkpoint writes the pending partitions down through a draft. It succeeds wherever its file has a
place, and leaves all files alone but its own and the draft.
-/

namespace CommitCoordinator

open Storage

/-- A machine on which the pending partitions have been stored for a checkpoint. -/
def Machine.saved (machine : Machine) (file draft : Storage.Route) (coordinator : Coordinator)
    (pending : Pending) (checkpoint : Int64) : Machine :=
  let content := FileStore.encode [pending.snapshot checkpoint coordinator.watermark]
  { machine with
    files := machine.files.replaced file draft (.bytes content)
    ledger := (machine.ledger.record (.checkpointStateSize content.length)).record
      (.pendingPartitions coordinator.label pending.size) }

section Machine

variable {machine : Machine} {path other : String} {file draft file' draft' : Storage.Route}

/-- Storing snapshots leaves room for all files. -/
theorem Machine.hosts_saved (h : machine.files.Hosts path file draft)
    (h' : machine.files.Hosts other file' draft') (coordinator : Coordinator) (pending : Pending)
    (checkpoint : Int64) :
    (machine.saved file' draft' coordinator pending checkpoint).files.Hosts path file draft :=
  h.of_replaced h' _

/-- Snapshots that are stored leave all files alone but their own and its draft. -/
theorem Machine.read_saved_of_ne (h : machine.files.Hosts path file draft) {name : String}
    (hother : FileTree.InRoot other name) (hfile : [name] ≠ file) (hdraft : [name] ≠ draft)
    (coordinator : Coordinator) (pending : Pending) (checkpoint : Int64) :
    ((machine.saved file draft coordinator pending checkpoint).files.read other).toOption =
      (machine.files.read other).toOption := by
  rw [hother.read_eq (hosts_saved h h coordinator pending checkpoint).free, hother.read_eq h.free]
  exact FileTree.contentAt_congr (FileTree.node?_replaced_of_ne hfile hdraft _)

/-- The draft of snapshots that are stored is gone. -/
theorem Machine.read_saved_draft {name : String} (h : machine.files.Hosts path file [name])
    (hother : FileTree.InRoot other name) (hne : [name] ≠ file) (coordinator : Coordinator)
    (pending : Pending) (checkpoint : Int64) :
    ((machine.saved file [name] coordinator pending checkpoint).files.read other).toOption =
      none := by
  have hgone : (machine.saved file [name] coordinator pending checkpoint).files.node? [name] =
      none :=
    h.node?_replaced_draft _ hne
  rw [hother.read_eq (hosts_saved h h coordinator pending checkpoint).free, FileTree.contentAt,
    hgone]

/-- A checkpoint succeeds if its file has a place. -/
theorem Operator.deliver_checkpoint_of_hosts (h : machine.files.Hosts path file draft)
    (operator : Operator) {pending : Pending}
    (hpending : operator.coordinator.pending = some pending) (services : Services MachineM)
    (checkpoint : Int64) :
    operator.deliver services (fileStore path) (.checkpoint checkpoint) machine =
      ((.ok (), operator),
        machine.saved file draft operator.coordinator pending checkpoint) := by
  have hstore := run_store_of_hosts h
    [pending.snapshot checkpoint operator.coordinator.watermark]
  rw [deliver, Coordinator.snapshot, hpending]
  change ((FileStore.store path _ >>= _) >>= _ : MachineM _) machine = _
  rw [state_bind, state_bind, hstore]
  rfl

end Machine

end CommitCoordinator
