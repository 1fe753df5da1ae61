import CommitCoordinator.Collection.Sequenced
import CommitCoordinator.Metrics.Event

/-!
# The ledger of metrics

The ledger holds the present value of each metric that an event has updated: the total of
a counter, the last value of a gauge and the number of samples of a histogram.
-/

namespace CommitCoordinator

/-- The value of each metric that was touched. -/
structure MetricLedger where
  values : SequencedMap Metric Nat
deriving DecidableEq

namespace MetricLedger

def empty : MetricLedger :=
  ⟨.empty⟩

instance : Inhabited MetricLedger := ⟨empty⟩

/-- The value of a metric, zero before its first update. -/
def value (ledger : MetricLedger) (metric : Metric) : Nat :=
  (ledger.values.find? metric).getD 0

def update (ledger : MetricLedger) (change : Metric × Nat) : MetricLedger :=
  let (metric, amount) := change
  ⟨ledger.values.insert metric <|
    match metric.kind with
    | .gauge => amount
    | .counter => ledger.value metric + amount
    | .histogram => ledger.value metric + 1⟩

def record (ledger : MetricLedger) (event : MetricEvent) : MetricLedger :=
  event.updates.foldl update ledger

end MetricLedger

end CommitCoordinator
