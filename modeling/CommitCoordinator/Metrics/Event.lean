/-!
# Metric events

Every occurrence that is measured is an event. An event updates one or two metrics, each under
a name and labels.
-/

namespace CommitCoordinator

/-- The step of a commit that failed. -/
inductive CommitStage where
  | lookup
  | listing
  | snapshot
  | manifest
deriving DecidableEq, Repr

def CommitStage.name : CommitStage → String
  | .lookup => "lookup"
  | .listing => "listing"
  | .snapshot => "snapshot"
  | .manifest => "manifest"

/-- What is worth counting. -/
inductive MetricEvent where
  | quorumReached (table : String)
  | quorumViolated (table : String)
  | commitCompleted (table : String)
  | commitRejected (table : String)
  | commitFailed (table : String) (stage : CommitStage)
  | partitionsCommitted (table : String) (count : Nat)
  | filesCommitted (table : String) (count : Nat)
  | pendingPartitions (table : String) (count : Nat)
  | checkpointStateSize (bytes : Nat)
  | directoryListed (backend : String)
  | directoryListingFailed (backend : String)
deriving DecidableEq, Repr

/-- How a metric takes a new value. -/
inductive MetricKind where
  /-- The value is added. -/
  | counter
  /-- The value replaces the earlier one. -/
  | gauge
  /-- The value is a sample, and samples are counted. -/
  | histogram
deriving DecidableEq, Repr

def MetricKind.name : MetricKind → String
  | .counter => "counter"
  | .gauge => "gauge"
  | .histogram => "histogram"

/-- What identifies a metric. -/
structure Metric where
  name : String
  kind : MetricKind
  labels : List (String × String)
deriving DecidableEq, Repr

namespace MetricEvent

def tableCounter (name table : String) (count : Nat) : List (Metric × Nat) :=
  [(⟨name, .counter, [("table", table)]⟩, count)]

/-- The metrics that an event updates, each with its value. -/
def updates : MetricEvent → List (Metric × Nat)
  | .quorumReached table => tableCounter "soulsink_quorums_reached_total" table 1
  | .quorumViolated table => tableCounter "soulsink_quorum_violations_total" table 1
  | .commitCompleted table =>
    [(⟨"soulsink_commit_duration_seconds", .histogram, [("table", table)]⟩, 1)]
  | .commitRejected table => tableCounter "soulsink_commits_rejected_total" table 1
  | .commitFailed table stage =>
    [(⟨"soulsink_commits_failed_total", .counter, [("table", table), ("stage", stage.name)]⟩, 1)]
  | .partitionsCommitted table count =>
    tableCounter "soulsink_partitions_committed_total" table count
  | .filesCommitted table count => tableCounter "soulsink_files_committed_total" table count
  | .pendingPartitions table count =>
    [(⟨"soulsink_pending_partitions", .gauge, [("table", table)]⟩, count)]
  | .checkpointStateSize bytes => [(⟨"soulsink_checkpoint_state_bytes", .gauge, []⟩, bytes)]
  | .directoryListed backend =>
    [(⟨"soulsink_directory_listings_total", .counter, [("backend", backend)]⟩, 1),
     (⟨"soulsink_directory_listing_duration_seconds", .histogram, [("backend", backend)]⟩, 1)]
  | .directoryListingFailed backend =>
    [(⟨"soulsink_directory_listing_errors_total", .counter, [("backend", backend)]⟩, 1)]

end MetricEvent

end CommitCoordinator
