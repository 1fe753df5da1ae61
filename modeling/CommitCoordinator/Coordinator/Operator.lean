import CommitCoordinator.Coordinator.Basic
import CommitCoordinator.HostEvent

/-!
# Coordinators as operators of a stream

An operator is a coordinator together with what it remembers of its commits. Events are delivered
one after the other, up to the first that fails.
-/

namespace CommitCoordinator

variable {m : Type → Type} [Monad m]

/-- Delivers events in order and counts those that did not fail. -/
def driveWith {σ ε : Type} (deliver : HostEvent → σ → m (Except ε Unit × σ)) (delivered : Nat) :
    List HostEvent → σ → m (Except ε Nat × σ)
  | [], state => return (.ok delivered, state)
  | event :: rest, state => do
    match ← deliver event state with
    | (.error e, state) => return (.error e, state)
    | (.ok (), state) => driveWith deliver (delivered + 1) rest state

/-- A coordinator with its commits so far. -/
structure Operator where
  coordinator : Coordinator
  /-- The latest commit that reached the catalog. -/
  lastCommit : Option CommitSummary
  commitCount : Nat
deriving DecidableEq

namespace Operator

/-- An operator that has not committed. -/
def new (coordinator : Coordinator) : Operator :=
  ⟨coordinator, none, 0⟩

/-- Takes note of the result of a report. -/
def remember (operator : Operator) (summary : Option CommitSummary) : Operator :=
  match summary with
  | some summary =>
    { operator with lastCommit := some summary, commitCount := operator.commitCount + 1 }
  | none => operator

variable [MonadMetrics m] [MonadFresh m] [MonadClock m]

/-- Initializes the coordinator. -/
def launch (store : SnapshotStore m) (restored : Bool) (operator : Operator) :
    m (Except CommitError Unit × Operator) := do
  let (result, coordinator) ← operator.coordinator.launch store restored
  return (result, { operator with coordinator })

/-- Delivers one event. -/
def deliver (services : Services m) (store : SnapshotStore m) (event : HostEvent)
    (operator : Operator) : m (Except CommitError Unit × Operator) := do
  match event with
  | .record report =>
    let (result, coordinator) ← operator.coordinator.process services report
    let operator := { operator with coordinator }
    match result with
    | .ok summary => return (.ok (), operator.remember summary)
    | .error e => return (.error e, operator)
  | .watermark timestamp =>
    let coordinator := operator.coordinator.observeWatermark timestamp
    return (.ok (), { operator with coordinator })
  | .checkpoint id => return (← operator.coordinator.snapshot store id, operator)

/-- Delivers events in order up to the first that fails. -/
def drive (services : Services m) (store : SnapshotStore m) (events : List HostEvent)
    (operator : Operator) : m (Except CommitError Nat × Operator) :=
  driveWith (deliver services store) 0 events operator

end Operator

end CommitCoordinator
