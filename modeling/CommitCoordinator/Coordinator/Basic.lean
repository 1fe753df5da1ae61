import CommitCoordinator.Coordinator.Attempt
import CommitCoordinator.Pending

/-!
# The coordinator of a table

A coordinator collects the reports of parallel writers. The report that completes a checkpoint
starts an attempt to commit all pending partitions. Partitions whose snapshots never reached the
catalog become pending again in front of the others.
-/

namespace CommitCoordinator

/-- The watermark before the first tick. -/
def noWatermark : Int64 :=
  Int64.minValue

/-- A commit that reached the catalog. -/
structure CommitSummary where
  checkpoint : Int64
  tableId : String
  partitions : List String
  /-- The new snapshot of each partition. -/
  snapshots : List Uuid
  files : Nat
deriving DecidableEq, Repr

/-- The state of the coordinator of one table. -/
structure Coordinator where
  /-- The name of the table in metrics. -/
  label : String
  options : SinkOptions
  /-- The pending partitions, absent before initialization. -/
  pending : Option Pending
  /-- The reports so far; the first accepted one fixes the number of writers. -/
  quorum : Option Quorum
  watermark : Int64
deriving DecidableEq

namespace Coordinator

/-- A coordinator that has not been initialized. -/
def new (label : String) (options : SinkOptions) : Coordinator :=
  ⟨label, options, none, none, noWatermark⟩

/-- Whether pending partitions, if only an empty list, have been set up. -/
def isInitialized (coordinator : Coordinator) : Bool :=
  coordinator.pending.isSome

/-- The pending partitions in the order of their observation. -/
def pendingList (coordinator : Coordinator) : List String :=
  (coordinator.pending.map Pending.toList).getD []

/-! ## Steps that need nothing from outside -/

/-- Begins with partitions that are already pending. -/
def start (coordinator : Coordinator) (pending : Pending) : Coordinator :=
  { coordinator with pending := some pending, quorum := none, watermark := noWatermark }

/-- The quorum that a report belongs to, if the report agrees with it. -/
def quorumFor (coordinator : Coordinator) (report : Report) : Except QuorumError Quorum := do
  let quorum ← match coordinator.quorum with
    | some quorum => .ok quorum
    | none => Quorum.create report.taskCount
  quorum.validate report.task report.taskCount
  return quorum

/-- Takes note of a report; the flag tells whether it completes its checkpoint. -/
def receive (coordinator : Coordinator) (report : Report) :
    Except CommitError (Coordinator × Bool) :=
  match coordinator.pending with
  | none => .error .notInitialized
  | some pending =>
    match coordinator.quorumFor report with
    | .error cause => .error (.quorum cause)
    | .ok quorum =>
      let (quorum, completed) := quorum.add report.checkpoint report.task
      let pending := pending.observeAll report.partitions.elements
      .ok ({ coordinator with pending := some pending, quorum := some quorum }, completed)

/-- Takes all pending partitions out. -/
def drain (coordinator : Coordinator) : List String × Coordinator :=
  match coordinator.pending with
  | none => ([], coordinator)
  | some pending =>
    let (partitions, pending) := pending.drain
    (partitions, { coordinator with pending := some pending })

/-- Puts partitions back in front of the pending ones. -/
def giveBack (coordinator : Coordinator) (partitions : List String) : Coordinator :=
  { coordinator with pending := coordinator.pending.map (·.giveBack partitions) }

/-- What a commit tells of itself. -/
def summarize (report : Report) (partitions : List String) (payload : Payload) : CommitSummary :=
  ⟨report.checkpoint, payload.request.table.id, partitions, payload.snapshots, payload.fileCount⟩

/-- The result of an attempt. -/
def resultOf (report : Report) (partitions : List String) :
    Attempt → Except CommitError (Option CommitSummary)
  | .lookupFailed cause => .error (.catalog cause)
  | .listingFailed partition cause => .error (.listing partition cause)
  | .rejected => .error (.rejected report.table report.checkpoint partitions.length)
  | .appendFailed cause => .error (.append cause)
  | .insertFailed cause => .error (.manifest cause)
  | .committed payload => .ok (some (summarize report partitions payload))

/-- Gives the partitions of an attempt back unless their snapshots were appended. -/
def settle (coordinator : Coordinator) (partitions : List String) (attempt : Attempt) :
    Coordinator :=
  if attempt.isAppended then coordinator else coordinator.giveBack partitions

/-- Takes note of a watermark, which has no influence on commits. -/
def observeWatermark (coordinator : Coordinator) (timestamp : Int64) : Coordinator :=
  { coordinator with watermark := timestamp }

/-! ## Steps with a catalog, a listing and a store -/

variable {m : Type → Type} [Monad m] [MonadMetrics m]

/-- Emits events in order. -/
def emitAll (events : List MetricEvent) : m Unit :=
  events.forM emit

/-- Begins without pending partitions, or with those of the last stored snapshot. -/
def launch (store : SnapshotStore m) (restored : Bool) (coordinator : Coordinator) :
    m (Except CommitError Unit × Coordinator) := do
  if coordinator.isInitialized then return (.error .alreadyInitialized, coordinator)
  else
    match ← (if restored then store.load else pure (.ok [])) with
    | .error cause => return (.error (.state cause), coordinator)
    | .ok snapshots =>
      let pending := Pending.restore snapshots
      emit (.pendingPartitions coordinator.label pending.size)
      return (.ok (), coordinator.start pending)

variable [MonadFresh m] [MonadClock m]

/-- Commits the pending partitions on behalf of a report. Without pending partitions the catalog
is left alone. -/
def commit (services : Services m) (report : Report) (coordinator : Coordinator) :
    m (Except CommitError (Option CommitSummary) × Coordinator) := do
  if !coordinator.isInitialized then return (.error .notInitialized, coordinator)
  else
    let (partitions, drained) := coordinator.drain
    if partitions.isEmpty then return (.ok none, drained)
    else
      let attempt ← Attempt.run services coordinator.options report partitions
      emitAll (attempt.events coordinator.label)
      return (resultOf report partitions attempt, drained.settle partitions attempt)

/-- Takes a report in and commits if it completes its checkpoint. -/
def process (services : Services m) (report : Report) (coordinator : Coordinator) :
    m (Except CommitError (Option CommitSummary) × Coordinator) := do
  match coordinator.receive report with
  | .error (.quorum cause) =>
    emit (.quorumViolated coordinator.label)
    return (.error (.quorum cause), coordinator)
  | .error e => return (.error e, coordinator)
  | .ok (coordinator, false) => return (.ok none, coordinator)
  | .ok (coordinator, true) =>
    emit (.quorumReached coordinator.label)
    coordinator.commit services report

/-- Stores the pending partitions for a checkpoint. -/
def snapshot (store : SnapshotStore m) (checkpoint : Int64) (coordinator : Coordinator) :
    m (Except CommitError Unit) := do
  match coordinator.pending with
  | none => return .error .notInitialized
  | some pending =>
    match ← store.store [pending.snapshot checkpoint coordinator.watermark] with
    | .error cause => return .error (.state cause)
    | .ok () =>
      emit (.pendingPartitions coordinator.label pending.size)
      return .ok ()

end Coordinator

end CommitCoordinator
