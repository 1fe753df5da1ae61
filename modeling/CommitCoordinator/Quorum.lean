import CommitCoordinator.Collection.Sequenced

/-!
# Task quorum

A checkpoint is complete once every parallel writer has reported it. Only incomplete checkpoints
are remembered: the report that completes one also forgets it, so later reports for the same
checkpoint begin a new count.
-/

namespace CommitCoordinator

/-- The ways in which a report does not fit the quorum. -/
inductive QuorumError where
  /-- A report names another number of tasks than earlier reports. -/
  | taskCountMismatch (expected reported : UInt32)
  | taskOutOfRange (task total : UInt32)
  | zeroTasks
deriving DecidableEq, Repr

/-- The text shown for a report that does not fit. -/
def QuorumError.message : QuorumError → String
  | .taskCountMismatch expected reported =>
    s!"Task count mismatch: quorum expects {expected} tasks, record reports {reported}"
  | .taskOutOfRange task total => s!"Task id {task} out of range for {total} tasks"
  | .zeroTasks => "Number of tasks must be at least 1"

/-- The reports of incomplete checkpoints. -/
structure Quorum where
  total : UInt32
  total_ne_zero : total ≠ 0
  /-- The tasks that have reported each incomplete checkpoint. -/
  arrivals : SequencedMap Int64 (SequencedSet UInt32)
deriving DecidableEq

namespace Quorum

/-- A quorum of a number of writers without any report. -/
def create (total : UInt32) : Except QuorumError Quorum :=
  if h : total = 0 then .error .zeroTasks else .ok ⟨total, h, .empty⟩

/-- Whether a report agrees with the number of writers. -/
def validate (quorum : Quorum) (task taskCount : UInt32) : Except QuorumError Unit :=
  if taskCount ≠ quorum.total then .error (.taskCountMismatch quorum.total taskCount)
  else if quorum.total ≤ task then .error (.taskOutOfRange task quorum.total)
  else .ok ()

/-- The tasks that have reported an incomplete checkpoint. -/
def arrived (quorum : Quorum) (checkpoint : Int64) : SequencedSet UInt32 :=
  (quorum.arrivals.find? checkpoint).getD .empty

/-- Counts a report and tells whether it completes its checkpoint. -/
def add (quorum : Quorum) (checkpoint : Int64) (task : UInt32) : Quorum × Bool :=
  let before := quorum.arrived checkpoint
  let after := before.insert task
  if !before.contains task && quorum.total.toNat ≤ after.size then
    ({ quorum with arrivals := quorum.arrivals.erase checkpoint }, true)
  else ({ quorum with arrivals := quorum.arrivals.insert checkpoint after }, false)

/-- The number of incomplete checkpoints. -/
def openCount (quorum : Quorum) : Nat :=
  quorum.arrivals.entries.length

end Quorum

end CommitCoordinator
