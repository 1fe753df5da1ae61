import CommitCoordinator.Coordinator.Attempt
import CommitCoordinator.Metrics.Ledger
import CommitCoordinator.Storage.FileTree

/-!
# Machines

A machine is a value with all that coordinators touch outside of themselves: files, metrics,
identifiers and a clock. Programs over machines can be run and reasoned about without input or
output.
-/

namespace CommitCoordinator

open Storage

/-- All that a program sees of its surroundings. -/
structure Machine where
  files : FileTree
  ledger : MetricLedger
  /-- The number of the next identifier. -/
  nextId : Nat
  time : Int64

/-- Programs that run on a machine. -/
abbrev MachineM := StateM Machine

namespace Machine

/-- Runs an operation on the files; a failed one changes nothing. -/
def change (operation : FileTree → Except OsError FileTree) : MachineM (Except OsError Unit) :=
  fun machine ↦
    match operation machine.files with
    | .ok files => (.ok (), { machine with files })
    | .error e => (.error e, machine)

instance : MonadFileSystem MachineM where
  readFile path := fun machine ↦ (machine.files.read path, machine)
  writeFile path content := change (·.write path (.bytes content))
  createDirs path := fun machine ↦
    let (files, result) := machine.files.createDirsTo path
    (result, { machine with files })
  rename source target := change (·.renameTo source target)
  isFile path := fun machine ↦ (machine.files.isFileAt path, machine)
  listDir path := fun machine ↦ (machine.files.list path, machine)

/-- A machine reaches no stores but its own files. -/
instance : MonadObjectStore MachineM where
  listStore address _ := return .error address.unreachable

instance : MonadMetrics MachineM where
  emit event := fun machine ↦ ((), { machine with ledger := machine.ledger.record event })

instance : MonadFresh MachineM where
  freshId := fun machine ↦
    (Uuid.ofNumber machine.nextId, { machine with nextId := machine.nextId + 1 })

instance : MonadClock MachineM where
  currentTime := fun machine ↦ (machine.time, machine)

end Machine

end CommitCoordinator
