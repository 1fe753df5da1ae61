import CommitCoordinator.Metrics.Ledger
import CommitCoordinator.Proofs.Collection.Lookup
import CommitCoordinator.Proofs.Coordinator.Run
import CommitCoordinator.Proofs.Dialogue.Along
import Mathlib.Algebra.BigOperators.Group.List.Basic
import Mathlib.Algebra.GroupWithZero.Nat

/-!
# Accounting for commits

Counters and histograms of a table only grow, each event by a fixed amount. What a step of a
coordinator books is decided by its result: one event for the completed checkpoint and one for the
way in which the attempt to commit ended. Over a run every completed checkpoint is therefore
accounted for exactly once.
-/

namespace CommitCoordinator

open Dialogue

/-! ## What a ledger holds -/

/-- What a change adds to a metric that is no gauge. -/
def Metric.gain (metric : Metric) (change : Metric × Nat) : Nat :=
  if change.1 = metric then if metric.kind = .histogram then 1 else change.2 else 0

/-- What an event adds to a metric that is no gauge. -/
def MetricEvent.amount (metric : Metric) (event : MetricEvent) : Nat :=
  (event.updates.map metric.gain).sum

namespace MetricLedger

variable {metric : Metric}

/-- A change of another metric changes nothing. -/
theorem value_update_of_ne (ledger : MetricLedger) {change : Metric × Nat}
    (h : change.1 ≠ metric) : (ledger.update change).value metric = ledger.value metric := by
  unfold value update
  rw [SequencedMap.find?_insert_of_ne _ _ (Ne.symm h)]

/-- Counters and histograms gain what a change adds to them. -/
theorem value_update (ledger : MetricLedger) (change : Metric × Nat) (h : metric.kind ≠ .gauge) :
    (ledger.update change).value metric = ledger.value metric + metric.gain change := by
  obtain ⟨changed, amount⟩ := change
  unfold Metric.gain
  dsimp only
  split
  · next hsame =>
    subst hsame
    have hinsert (value : Nat) :
        (MetricLedger.mk (ledger.values.insert changed value)).value changed = value := by
      rw [MetricLedger.value, SequencedMap.find?_insert_self, Option.getD_some]
    unfold update
    dsimp only
    cases hkind : changed.kind with
    | gauge => exact absurd hkind h
    | counter => exact hinsert _
    | histogram => exact hinsert _
  · next hother => exact value_update_of_ne ledger hother

theorem value_foldl_update (changes : List (Metric × Nat)) (ledger : MetricLedger)
    (h : metric.kind ≠ .gauge) :
    (changes.foldl update ledger).value metric =
      ledger.value metric + (changes.map metric.gain).sum := by
  induction changes generalizing ledger with
  | nil => rfl
  | cons change rest ih =>
    rw [List.foldl_cons, ih, value_update ledger change h, List.map_cons, List.sum_cons,
      Nat.add_assoc]

theorem value_record (ledger : MetricLedger) (event : MetricEvent) (h : metric.kind ≠ .gauge) :
    (ledger.record event).value metric = ledger.value metric + event.amount metric :=
  value_foldl_update event.updates ledger h

end MetricLedger

/-! ## Books that are kept along a run -/

/-- Whether a metric is kept for a table. -/
def Metric.isOf (table : String) (metric : Metric) : Prop :=
  ("table", table) ∈ metric.labels

/-- Whether a ledger takes note of the events of a table. Other calls may change the ledger as well,
but not in the metrics of the table. -/
def Books (table : String) (before : MetricLedger) : Exchange → MetricLedger → Prop
  | ⟨.emit event, _⟩, after => after = before.record event
  | _, after => ∀ metric : Metric, metric.isOf table → after.value metric = before.value metric

/-- The ledger after exchanges of which only the events change it. -/
def MetricLedger.follow (ledger : MetricLedger) (transcript : List Exchange) : MetricLedger :=
  transcript.foldl (fun ledger exchange ↦
    match exchange.call with
    | .emit event => ledger.record event
    | _ => ledger) ledger

theorem along_follow (table : String) (ledger : MetricLedger) (transcript : List Exchange) :
    Along (Books table) ledger transcript (ledger.follow transcript) := by
  induction transcript generalizing ledger with
  | nil => rfl
  | cons exchange rest ih =>
    refine ⟨_, ?_, ih _⟩
    obtain ⟨call, answer⟩ := exchange
    cases call with
    | emit event => rfl
    | _ => exact fun _ _ ↦ rfl

/-- The event that an exchange adds to counters and histograms. -/
def Exchange.booked? : Exchange → Option MetricEvent
  | ⟨.emit (.pendingPartitions _ _), _⟩ => none
  | ⟨.emit event, _⟩ => some event
  | _ => none

/-- What events add to a metric. -/
def totalAmount (metric : Metric) (events : List MetricEvent) : Nat :=
  (events.map (MetricEvent.amount metric)).sum

theorem totalAmount_append (metric : Metric) (front back : List MetricEvent) :
    totalAmount metric (front ++ back) = totalAmount metric front + totalAmount metric back := by
  rw [totalAmount, List.map_append, List.sum_append]
  rfl

theorem totalAmount_flatMap {α : Type} (metric : Metric) (f : α → List MetricEvent)
    (items : List α) : totalAmount metric (items.flatMap f) =
      (items.map fun item ↦ totalAmount metric (f item)).sum := by
  induction items with
  | nil => rfl
  | cons item rest ih =>
    rw [List.flatMap_cons, totalAmount_append, ih, List.map_cons, List.sum_cons]

section Books

variable {table : String} {metric : Metric} {before after : MetricLedger}

theorem Books.value_eq {exchange : Exchange} (h : Books table before exchange after)
    (hof : metric.isOf table) (hkind : metric.kind ≠ .gauge) :
    after.value metric = before.value metric + totalAmount metric exchange.booked?.toList := by
  obtain ⟨call, answer⟩ := exchange
  cases call with
  | emit event =>
    obtain rfl : after = before.record event := h
    rw [MetricLedger.value_record before event hkind]
    cases event with
    | pendingPartitions label count =>
      have hother : (⟨"soulsink_pending_partitions", .gauge, [("table", label)]⟩ : Metric) ≠
          metric := fun hsame ↦ hkind (hsame ▸ rfl)
      have hnone : (MetricEvent.pendingPartitions label count).amount metric = 0 := by
        simp [MetricEvent.amount, Metric.gain, MetricEvent.updates, hother]
      rw [hnone]
      rfl
    | _ => exact (Nat.add_zero _).symm ▸ rfl
  | _ => exact h metric hof

/-- A metric of the table gains what the events of a transcript add to it. -/
theorem value_eq_of_along {transcript : List Exchange}
    (h : Along (Books table) before transcript after) (hof : metric.isOf table)
    (hkind : metric.kind ≠ .gauge) :
    after.value metric =
      before.value metric + totalAmount metric (transcript.filterMap Exchange.booked?) := by
  induction transcript generalizing before with
  | nil => exact congrArg (MetricLedger.value · metric) h
  | cons exchange rest ih =>
    obtain ⟨between, hbooks, hrest⟩ := h
    have hcons : (exchange :: rest).filterMap Exchange.booked? =
        exchange.booked?.toList ++ rest.filterMap Exchange.booked? := by
      rw [List.filterMap_cons]
      cases exchange.booked? <;> rfl
    rw [ih hrest, hbooks.value_eq hof hkind, hcons, totalAmount_append, Nat.add_assoc]

end Books

/-! ## What a step books -/

/-- The stage of a commit that an error tells of. -/
def CommitError.stage? : CommitError → Option CommitStage
  | .catalog _ => some .lookup
  | .listing _ _ => some .listing
  | .append _ => some .snapshot
  | .manifest _ => some .manifest
  | _ => none

/-- The events that tell of a result. -/
def outcomeEvents (table : String) : Except CommitError (Option CommitSummary) → List MetricEvent
  | .ok none => []
  | .ok (some summary) =>
    [.commitCompleted table, .partitionsCommitted table summary.partitions.length,
      .filesCommitted table summary.files]
  | .error (.quorum _) => [.quorumViolated table]
  | .error (.rejected _ _ _) => [.commitRejected table]
  | .error cause => (cause.stage?.map (.commitFailed table)).toList

namespace Step

/-- Whether the step's report completes its checkpoint. -/
def completes (step : Step) : Bool :=
  match step.event with
  | .record report =>
    match step.before.receive report with
    | .ok (_, completed) => completed
    | .error _ => false
  | _ => false

/-- Whether the step's report completes its checkpoint while nothing is pending. -/
def findsNothing (step : Step) : Bool :=
  match step.event with
  | .record report =>
    match step.before.receive report with
    | .ok (received, completed) => completed && received.pendingList.isEmpty
    | .error _ => false
  | _ => false

/-- The events of a step that counters and histograms take note of. -/
def booked (step : Step) : List MetricEvent :=
  (if step.completes then [.quorumReached step.before.label] else []) ++
    outcomeEvents step.before.label step.result

end Step

theorem filterMap_booked_emitted {events : List MetricEvent}
    (h : ∀ event ∈ events, (emitted event).booked? = some event) :
    (events.map emitted).filterMap Exchange.booked? = events := by
  induction events with
  | nil => rfl
  | cons event rest ih =>
    rw [List.map_cons, List.filterMap_cons_some (h event List.mem_cons_self),
      ih fun other hother ↦ h other (List.mem_cons_of_mem _ hother)]

theorem filterMap_booked_eq_nil {transcript : List Exchange}
    (h : ∀ exchange ∈ transcript, exchange.booked? = none) :
    transcript.filterMap Exchange.booked? = [] :=
  List.filterMap_eq_nil_iff.2 h

namespace Attempt

/-- An attempt emits nothing before it has ended. -/
theorem Course.booked_eq_nil {options : SinkOptions} {report : Report} {partitions : List String}
    {transcript : List Exchange} {attempt : Attempt}
    (h : Course options report partitions transcript attempt) :
    transcript.filterMap Exchange.booked? = [] := by
  have hfindings (findings : List Finding) :
      (findings.flatMap (·.exchanges options)).filterMap Exchange.booked? = [] := by
    refine filterMap_booked_eq_nil fun exchange hexchange ↦ ?_
    obtain ⟨finding, -, hmem⟩ := List.mem_flatMap.1 hexchange
    rcases List.mem_pair.1 hmem with rfl | rfl <;> rfl
  cases h with
  | lookupFailed cause => rfl
  | listingFailed table findings partition rest cause hpartitions =>
    rw [List.filterMap_cons_none rfl, List.filterMap_append, hfindings]
    rfl
  | sent table findings time hpartitions hphases =>
    rw [List.filterMap_cons_none rfl, List.filterMap_append, hfindings]
    cases hphases <;> rfl

/-- The events of an attempt tell of its result. -/
theorem Course.events_eq {options : SinkOptions} {report : Report} {partitions : List String}
    {transcript : List Exchange} {attempt : Attempt}
    (h : Course options report partitions transcript attempt) (table : String) :
    attempt.events table =
      outcomeEvents table (Coordinator.resultOf report partitions attempt) := by
  cases h with
  | lookupFailed cause => rfl
  | listingFailed found findings partition rest cause hpartitions => rfl
  | sent found findings time hpartitions hphases =>
    cases hphases with
    | appendFailed cause => rfl
    | rejected => rfl
    | insertFailed cause => rfl
    | committed =>
      have hlength : (payloadOf options report.fileMark found findings time).manifests.length =
          partitions.length := by
        rw [hpartitions]
        simp [payloadOf, Payload.assemble]
      rw [events, hlength]
      rfl

theorem booked_of_mem_events {attempt : Attempt} {table : String} {event : MetricEvent}
    (h : event ∈ attempt.events table) : (emitted event).booked? = some event := by
  cases attempt with
  | committed payload =>
    simp only [events, List.mem_cons, List.not_mem_nil, or_false] at h
    rcases h with rfl | rfl | rfl <;> rfl
  | _ => obtain rfl := List.mem_singleton.1 h; rfl

end Attempt

namespace Step

variable {step : Step}

theorem completes_of_receive {report : Report} {received : Coordinator} {completed : Bool}
    (hevent : step.event = .record report)
    (hreceive : step.before.receive report = .ok (received, completed)) :
    step.completes = completed ∧
      step.findsNothing = (completed && received.pendingList.isEmpty) := by
  unfold completes findsNothing
  rw [hevent]
  dsimp only
  rw [hreceive]
  exact ⟨rfl, rfl⟩

theorem completes_of_refused {report : Report} {cause : CommitError}
    (hevent : step.event = .record report)
    (hreceive : step.before.receive report = .error cause) :
    step.completes = false ∧ step.findsNothing = false := by
  unfold completes findsNothing
  rw [hevent]
  dsimp only
  rw [hreceive]
  exact ⟨rfl, rfl⟩

/-- A report is refused by the quorum or because the coordinator has not been initialized. -/
theorem cause_of_refused {before : Coordinator} {report : Report} {cause : CommitError}
    (h : before.receive report = .error cause) :
    cause = .notInitialized ∨ ∃ violation, cause = .quorum violation := by
  unfold Coordinator.receive at h
  split at h
  · exact .inl (Except.error.inj h).symm
  · split at h
    · next violation _ => exact .inr ⟨violation, (Except.error.inj h).symm⟩
    · cases h

theorem Valid.label_after (h : step.Valid) : step.after.label = step.before.label := by
  cases hevent : step.event with
  | record report => exact congrArg Prod.fst (h.processed hevent).fixed_eq
  | watermark timestamp => rw [(h.observed hevent).2.2]; rfl
  | checkpoint id =>
    obtain ⟨result, -, -, hafter⟩ := h.stored hevent
    rw [hafter]

/-- The summary of a step, if it has one. -/
def summary? (step : Step) : Option CommitSummary :=
  match step.result with
  | .ok summary => summary
  | .error _ => none

/-- Whether the quorum refused the step's report. -/
def isViolation (step : Step) : Bool :=
  match step.result with
  | .error (.quorum _) => true
  | _ => false

/-- Whether the catalog refused to append the snapshots of the step. -/
def isRejected (step : Step) : Bool :=
  match step.result with
  | .error (.rejected _ _ _) => true
  | _ => false

/-- The stage at which the step's commit failed, if it did. -/
def stage? (step : Step) : Option CommitStage :=
  match step.result with
  | .error cause => cause.stage?
  | .ok _ => none

/-- What a step adds to counters and histograms is decided by its result and by whether it completes
a checkpoint. -/
theorem Valid.filterMap_booked (h : step.Valid) :
    step.transcript.filterMap Exchange.booked? = step.booked := by
  unfold booked
  cases hevent : step.event with
  | watermark timestamp =>
    obtain ⟨htranscript, hresult, -⟩ := h.observed hevent
    have hcompletes : step.completes = false := by unfold completes; rw [hevent]
    rw [htranscript, hresult, hcompletes]
    rfl
  | checkpoint id =>
    obtain ⟨result, hstored, hresult, -⟩ := h.stored hevent
    have hcompletes : step.completes = false := by unfold completes; rw [hevent]
    rw [hresult, hcompletes]
    generalize step.transcript = transcript at hstored
    cases hstored <;> rfl
  | record report =>
    cases hreceive : step.before.receive report with
    | error cause =>
      obtain ⟨htranscript, hresult, -⟩ := (h.processed hevent).of_refused hreceive
      rw [htranscript, hresult, (completes_of_refused hevent hreceive).1]
      rcases cause_of_refused hreceive with rfl | ⟨violation, rfl⟩ <;> rfl
    | ok outcome =>
      obtain ⟨received, completed⟩ := outcome
      have hlabel : received.label = step.before.label :=
        congrArg Prod.fst (Coordinator.fixed_receive hreceive)
      rw [(completes_of_receive hevent hreceive).1, ← hlabel]
      cases completed with
      | false =>
        obtain ⟨htranscript, hresult, -⟩ := (h.processed hevent).of_awaited hreceive
        rw [htranscript, hresult]
        rfl
      | true =>
        obtain ⟨-, htranscript, hresult, -⟩ | ⟨-, exchanges, attempt, hcourse, htranscript,
          hresult, -⟩ := (h.processed hevent).of_completed hreceive
        · rw [htranscript, hresult]
          rfl
        · have hreached : (emitted (.quorumReached received.label)).booked? =
              some (.quorumReached received.label) := rfl
          rw [htranscript, hresult, ← hcourse.events_eq, List.filterMap_cons_some hreached,
            List.filterMap_append, hcourse.booked_eq_nil,
            filterMap_booked_emitted fun event hevent ↦ Attempt.booked_of_mem_events hevent]
          rfl

/-- A completed checkpoint ends with a summary, a rejection or a failure at one of the stages, or
finds nothing to commit; nothing else ends in these ways. -/
theorem Valid.balance (h : step.Valid) :
    step.completes.toNat = step.summary?.isSome.toNat + step.isRejected.toNat +
      step.stage?.isSome.toNat + step.findsNothing.toNat := by
  unfold summary? isRejected stage?
  cases hevent : step.event with
  | watermark timestamp =>
    obtain ⟨-, hresult, -⟩ := h.observed hevent
    have hquiet : step.completes = false ∧ step.findsNothing = false := by
      simp [completes, findsNothing, hevent]
    rw [hresult, hquiet.1, hquiet.2]
    rfl
  | checkpoint id =>
    obtain ⟨result, hstored, hresult, -⟩ := h.stored hevent
    have hquiet : step.completes = false ∧ step.findsNothing = false := by
      simp [completes, findsNothing, hevent]
    rw [hresult, hquiet.1, hquiet.2]
    generalize step.transcript = transcript at hstored
    cases hstored <;> rfl
  | record report =>
    cases hreceive : step.before.receive report with
    | error cause =>
      obtain ⟨-, hresult, -⟩ := (h.processed hevent).of_refused hreceive
      obtain ⟨hcompletes, hnothing⟩ := completes_of_refused hevent hreceive
      rw [hresult, hcompletes, hnothing]
      rcases cause_of_refused hreceive with rfl | ⟨violation, rfl⟩ <;> rfl
    | ok outcome =>
      obtain ⟨received, completed⟩ := outcome
      obtain ⟨hcompletes, hnothing⟩ := completes_of_receive hevent hreceive
      rw [hcompletes, hnothing]
      cases completed with
      | false =>
        obtain ⟨-, hresult, -⟩ := (h.processed hevent).of_awaited hreceive
        rw [hresult]
        rfl
      | true =>
        obtain ⟨hempty, -, hresult, -⟩ | ⟨hpending, exchanges, attempt, hcourse, -, hresult, -⟩ :=
          (h.processed hevent).of_completed hreceive
        · rw [hresult, hempty]
          rfl
        · have hsome : received.pendingList.isEmpty = false := by
            rwa [List.isEmpty_eq_false_iff]
          rw [hresult, hsome]
          cases attempt <;> rfl

end Step

/-! ## Metrics of a table -/

namespace Metric

variable (table : String)

def quorumsReached : Metric :=
  ⟨"soulsink_quorums_reached_total", .counter, [("table", table)]⟩

def quorumViolations : Metric :=
  ⟨"soulsink_quorum_violations_total", .counter, [("table", table)]⟩

def commitDurations : Metric :=
  ⟨"soulsink_commit_duration_seconds", .histogram, [("table", table)]⟩

def commitsRejected : Metric :=
  ⟨"soulsink_commits_rejected_total", .counter, [("table", table)]⟩

def commitsFailed (stage : CommitStage) : Metric :=
  ⟨"soulsink_commits_failed_total", .counter, [("table", table), ("stage", stage.name)]⟩

def partitionsCommitted : Metric :=
  ⟨"soulsink_partitions_committed_total", .counter, [("table", table)]⟩

def filesCommitted : Metric :=
  ⟨"soulsink_files_committed_total", .counter, [("table", table)]⟩

end Metric

theorem CommitStage.name_inj {stage other : CommitStage} :
    stage.name = other.name ↔ stage = other := by
  cases stage <;> cases other <;> decide

section Amounts

variable (metric : Metric) (table : String)

theorem MetricEvent.amount_of_updates {event : MetricEvent} {changed : Metric} {count : Nat}
    (hupdates : event.updates = [(changed, count)])
    (hsample : changed.kind = .histogram → count = 1) :
    event.amount metric = if changed = metric then count else 0 := by
  rw [amount, hupdates, List.map_cons, List.map_nil, List.sum_singleton, Metric.gain]
  by_cases hsame : changed = metric
  · subst hsame
    rw [if_pos rfl, if_pos rfl]
    split
    · next hkind => exact (hsample hkind).symm
    · rfl
  · rw [if_neg hsame, if_neg hsame]

@[simp] theorem amount_quorumReached : (MetricEvent.quorumReached table).amount metric =
    if .quorumsReached table = metric then 1 else 0 :=
  MetricEvent.amount_of_updates metric rfl nofun

@[simp] theorem amount_quorumViolated : (MetricEvent.quorumViolated table).amount metric =
    if .quorumViolations table = metric then 1 else 0 :=
  MetricEvent.amount_of_updates metric rfl nofun

@[simp] theorem amount_commitCompleted : (MetricEvent.commitCompleted table).amount metric =
    if .commitDurations table = metric then 1 else 0 :=
  MetricEvent.amount_of_updates metric rfl fun _ ↦ rfl

@[simp] theorem amount_commitRejected : (MetricEvent.commitRejected table).amount metric =
    if .commitsRejected table = metric then 1 else 0 :=
  MetricEvent.amount_of_updates metric rfl nofun

@[simp] theorem amount_commitFailed (stage : CommitStage) :
    (MetricEvent.commitFailed table stage).amount metric =
      if .commitsFailed table stage = metric then 1 else 0 :=
  MetricEvent.amount_of_updates metric rfl nofun

@[simp] theorem amount_partitionsCommitted (count : Nat) :
    (MetricEvent.partitionsCommitted table count).amount metric =
      if .partitionsCommitted table = metric then count else 0 :=
  MetricEvent.amount_of_updates metric rfl nofun

@[simp] theorem amount_filesCommitted (count : Nat) :
    (MetricEvent.filesCommitted table count).amount metric =
      if .filesCommitted table = metric then count else 0 :=
  MetricEvent.amount_of_updates metric rfl nofun

end Amounts

/-- What a step adds to each metric of its table. -/
structure Step.Amounts (table : String) (step : Step) : Prop where
  reached : totalAmount (.quorumsReached table) step.booked = step.completes.toNat
  violations : totalAmount (.quorumViolations table) step.booked = step.isViolation.toNat
  durations : totalAmount (.commitDurations table) step.booked = step.summary?.isSome.toNat
  rejected : totalAmount (.commitsRejected table) step.booked = step.isRejected.toNat
  failed (stage : CommitStage) : totalAmount (.commitsFailed table stage) step.booked =
    (decide (step.stage? = some stage)).toNat
  partitions : totalAmount (.partitionsCommitted table) step.booked =
    step.summary?.elim 0 (·.partitions.length)
  files : totalAmount (.filesCommitted table) step.booked = step.summary?.elim 0 (·.files)

theorem Step.amounts {table : String} {step : Step} (h : step.before.label = table) :
    step.Amounts table := by
  have hreached (metric : Metric) : totalAmount metric
      (if step.completes then [MetricEvent.quorumReached table] else []) =
        if .quorumsReached table = metric then step.completes.toNat else 0 := by
    cases step.completes <;> simp [totalAmount]
  have hbooked (metric : Metric) : totalAmount metric step.booked =
      (if .quorumsReached table = metric then step.completes.toNat else 0) +
        totalAmount metric (outcomeEvents table step.result) := by
    rw [booked, h, totalAmount_append, hreached]
  have hone (p : Prop) [Decidable p] : (decide p).toNat = if p then 1 else 0 := by
    split <;> simp [*]
  cases hresult : step.result with
  | error cause =>
    cases cause <;> constructor <;> simp only [hbooked] <;>
      simp [hresult, summary?, isViolation, isRejected, stage?, totalAmount,
        outcomeEvents, CommitError.stage?, Metric.quorumsReached, Metric.quorumViolations,
        Metric.commitDurations, Metric.commitsRejected, Metric.commitsFailed,
        Metric.partitionsCommitted, Metric.filesCommitted, CommitStage.name_inj, hone]
  | ok summary =>
    cases summary <;> constructor <;> simp only [hbooked] <;>
      simp [hresult, summary?, isViolation, isRejected, stage?, totalAmount,
        outcomeEvents, Metric.quorumsReached, Metric.quorumViolations, Metric.commitDurations,
        Metric.commitsRejected, Metric.commitsFailed, Metric.partitionsCommitted,
        Metric.filesCommitted]

/-! ## Runs -/

theorem Run.label_eq {start current : Coordinator} {steps : List Step}
    (h : Run start steps current) :
    current.label = start.label ∧ ∀ step ∈ steps, step.before.label = start.label := by
  induction h with
  | nil => exact ⟨rfl, fun step hstep ↦ absurd hstep List.not_mem_nil⟩
  | @snoc steps step _ hstep ih =>
    obtain ⟨hbefore, hearlier⟩ := ih
    refine ⟨hstep.label_after.trans hbefore, fun other hother ↦ ?_⟩
    rcases List.mem_append.1 hother with hother | hother
    · exact hearlier other hother
    · rw [List.mem_singleton.1 hother]
      exact hbefore

/-- The growth of a metric between two ledgers. -/
def MetricLedger.growth (before after : MetricLedger) (metric : Metric) : ℤ :=
  after.value metric - before.value metric

section Growth

variable {start current : Coordinator} {steps : List Step} {before after : MetricLedger}

/-- A metric of the table grows in a run by what its steps add to it. -/
theorem Run.growth_eq (hrun : Run start steps current)
    (hbooks : Along (Books start.label) before (steps.flatMap Step.transcript) after)
    {metric : Metric} (hof : metric.isOf start.label) (hkind : metric.kind ≠ .gauge)
    {amount : Step → Nat}
    (hamount : ∀ step : Step, step.before.label = start.label →
      totalAmount metric step.booked = amount step) :
    before.growth after metric = (steps.map amount).sum := by
  have hbooked : (steps.flatMap Step.transcript).filterMap Exchange.booked? =
      steps.flatMap Step.booked := by
    rw [List.filterMap_flatMap]
    exact List.flatMap_congr fun step hstep ↦ (hrun.valid step hstep).filterMap_booked
  have htotal : totalAmount metric (steps.flatMap Step.booked) = (steps.map amount).sum := by
    rw [totalAmount_flatMap]
    exact congrArg List.sum (List.map_congr_left fun step hstep ↦
      hamount step (hrun.label_eq.2 step hstep))
  rw [MetricLedger.growth, value_eq_of_along hbooks hof hkind, hbooked, htotal]
  omega

end Growth

theorem sum_map_toNat (p : Step → Bool) (steps : List Step) :
    (steps.map fun step ↦ (p step).toNat).sum = steps.countP p := by
  induction steps with
  | nil => rfl
  | cons step rest ih =>
    rw [List.map_cons, List.sum_cons, ih, List.countP_cons, Nat.add_comm]
    cases p step <;> rfl

theorem sum_map_elim {α : Type} (f : Step → Option α) (g : α → Nat) (steps : List Step) :
    (steps.map fun step ↦ (f step).elim 0 g).sum = ((steps.filterMap f).map g).sum := by
  induction steps with
  | nil => rfl
  | cons step rest ih =>
    rw [List.map_cons, List.sum_cons, ih, List.filterMap_cons]
    cases f step with
    | none => exact Nat.zero_add _
    | some value => rfl

/-- A failure has one stage. -/
theorem countP_stage (steps : List Step) :
    steps.countP (·.stage?.isSome) =
      steps.countP (·.stage? = some .lookup) + steps.countP (·.stage? = some .listing) +
        steps.countP (·.stage? = some .snapshot) + steps.countP (·.stage? = some .manifest) := by
  induction steps with
  | nil => rfl
  | cons step rest ih =>
    simp only [List.countP_cons, ih]
    rcases step.stage? with _ | _ | _ | _ | _ <;> simp <;> omega

/-- Every completed checkpoint of a run ends in one way. -/
theorem Run.balance {start current : Coordinator} {steps : List Step}
    (hrun : Run start steps current) :
    steps.countP Step.completes = steps.countP (·.summary?.isSome) + steps.countP Step.isRejected +
      steps.countP (·.stage?.isSome) + steps.countP Step.findsNothing := by
  have hvalid := hrun.valid
  clear hrun
  induction steps with
  | nil => rfl
  | cons step rest ih =>
    have hrest := ih fun other hother ↦ hvalid other (List.mem_cons_of_mem _ hother)
    have hstep := (hvalid step List.mem_cons_self).balance
    have hone (b : Bool) : (if b = true then 1 else 0) = b.toNat := by cases b <;> rfl
    simp only [List.countP_cons, hone]
    omega

/-- What the metrics of a table grow by in a run. -/
structure Growths (label : String) (steps : List Step) (before after : MetricLedger) : Prop where
  reached : before.growth after (.quorumsReached label) = steps.countP Step.completes
  violations : before.growth after (.quorumViolations label) = steps.countP Step.isViolation
  durations : before.growth after (.commitDurations label) =
    (steps.filterMap Step.summary?).length
  rejected : before.growth after (.commitsRejected label) = steps.countP Step.isRejected
  failed (stage : CommitStage) : before.growth after (.commitsFailed label stage) =
    steps.countP (·.stage? = some stage)
  partitions : before.growth after (.partitionsCommitted label) =
    ((steps.filterMap Step.summary?).map (·.partitions.length)).sum
  files : before.growth after (.filesCommitted label) =
    ((steps.filterMap Step.summary?).map (·.files)).sum

theorem Run.growths {start current : Coordinator} {steps : List Step}
    (hrun : Run start steps current) {before after : MetricLedger}
    (hbooks : Along (Books start.label) before (steps.flatMap Step.transcript) after) :
    Growths start.label steps before after := by
  have hcount {metric : Metric} (hof : metric.isOf start.label) (hkind : metric.kind ≠ .gauge)
      {p : Step → Bool} (hamount : ∀ step : Step, step.before.label = start.label →
        totalAmount metric step.booked = (p step).toNat) :
      before.growth after metric = steps.countP p := by
    rw [hrun.growth_eq hbooks hof hkind hamount, sum_map_toNat]
  have hsum {metric : Metric} (hof : metric.isOf start.label) (hkind : metric.kind ≠ .gauge)
      {size : CommitSummary → Nat} (hamount : ∀ step : Step, step.before.label = start.label →
        totalAmount metric step.booked = step.summary?.elim 0 size) :
      before.growth after metric = ((steps.filterMap Step.summary?).map size).sum := by
    rw [hrun.growth_eq hbooks hof hkind hamount, sum_map_elim]
  have hdurations : before.growth after (.commitDurations start.label) =
      steps.countP (·.summary?.isSome) :=
    hcount List.mem_cons_self MetricKind.noConfusion fun _ h ↦ (Step.amounts h).durations
  constructor
  case reached =>
    exact hcount List.mem_cons_self MetricKind.noConfusion fun _ h ↦ (Step.amounts h).reached
  case violations =>
    exact hcount List.mem_cons_self MetricKind.noConfusion fun _ h ↦ (Step.amounts h).violations
  case durations => rw [hdurations, List.length_filterMap_eq_countP]
  case rejected =>
    exact hcount List.mem_cons_self MetricKind.noConfusion fun _ h ↦ (Step.amounts h).rejected
  case failed =>
    exact fun stage ↦ hcount List.mem_cons_self MetricKind.noConfusion fun _ h ↦
      (Step.amounts h).failed stage
  case partitions =>
    exact hsum List.mem_cons_self MetricKind.noConfusion fun _ h ↦ (Step.amounts h).partitions
  case files =>
    exact hsum List.mem_cons_self MetricKind.noConfusion fun _ h ↦ (Step.amounts h).files

/-- The metrics of a run account for every completed checkpoint once. -/
theorem Growths.balance {start current : Coordinator} {steps : List Step}
    {before after : MetricLedger} (h : Growths start.label steps before after)
    (hrun : Run start steps current) :
    before.growth after (.quorumsReached start.label) =
      before.growth after (.commitDurations start.label) +
        before.growth after (.commitsRejected start.label) +
        (before.growth after (.commitsFailed start.label .lookup) +
          before.growth after (.commitsFailed start.label .listing) +
          before.growth after (.commitsFailed start.label .snapshot) +
          before.growth after (.commitsFailed start.label .manifest)) +
        steps.countP Step.findsNothing := by
  have hbalance := hrun.balance
  have hstages := countP_stage steps
  rw [h.reached, h.durations, h.rejected, h.failed, h.failed, h.failed, h.failed,
    List.length_filterMap_eq_countP]
  omega

/-- A run accounts for every completed checkpoint and for every refused report once, a failure under
the stage of the error that was returned, and for the partitions and files of its summaries. -/
theorem metrics_account_for_run {start current : Coordinator} {steps : List Step}
    (hrun : Run start steps current) {before after : MetricLedger}
    (hbooks : Along (Books start.label) before (steps.flatMap Step.transcript) after) :
    (before.growth after (.quorumsReached start.label) =
      before.growth after (.commitDurations start.label) +
        before.growth after (.commitsRejected start.label) +
        (before.growth after (.commitsFailed start.label .lookup) +
          before.growth after (.commitsFailed start.label .listing) +
          before.growth after (.commitsFailed start.label .snapshot) +
          before.growth after (.commitsFailed start.label .manifest)) +
        steps.countP Step.findsNothing) ∧
    before.growth after (.quorumsReached start.label) = steps.countP Step.completes ∧
    before.growth after (.quorumViolations start.label) = steps.countP Step.isViolation ∧
    before.growth after (.commitDurations start.label) = (steps.filterMap Step.summary?).length ∧
    before.growth after (.commitsRejected start.label) = steps.countP Step.isRejected ∧
    (∀ stage, before.growth after (.commitsFailed start.label stage) =
      steps.countP (·.stage? = some stage)) ∧
    before.growth after (.partitionsCommitted start.label) =
      ((steps.filterMap Step.summary?).map (·.partitions.length)).sum ∧
    before.growth after (.filesCommitted start.label) =
      ((steps.filterMap Step.summary?).map (·.files)).sum := by
  have hgrowths := hrun.growths hbooks
  exact ⟨hgrowths.balance hrun, hgrowths.reached, hgrowths.violations, hgrowths.durations,
    hgrowths.rejected, hgrowths.failed, hgrowths.partitions, hgrowths.files⟩

/-- The catalog does not know the table at the first checkpoint of the only writer. -/
def failedStep : Step :=
  .of (Call.unknown [] .last) ((Coordinator.new "orders" (.ofLocation "/orders")).start .empty)
    (.record ⟨4, 0, 1, "orders", "", .ofList ["a", "b"]⟩)

/-- The next checkpoint is committed, with the partitions of the first. -/
def repeatedStep : Step :=
  .of (Call.granted ⟨"t1", "orders", "/orders", ""⟩ [] .last) failedStep.after
    (.record ⟨5, 0, 1, "orders", "", .ofList ["a"]⟩)

theorem metrics_account_for_run_repeated :
    MetricLedger.growth .empty (MetricLedger.empty.follow
      ([failedStep, repeatedStep].flatMap Step.transcript)) (.quorumsReached "orders") = 2 := by
  have hrun : Run failedStep.before [failedStep, repeatedStep] repeatedStep.after :=
    .snoc (.snoc .nil (Step.valid_of _ _ _)) (Step.valid_of _ _ _)
  obtain ⟨hbalance, -, -, hdurations, hrejected, hfailed, -⟩ :=
    metrics_account_for_run hrun (along_follow _ .empty _)
  refine hbalance.trans ?_
  rw [hdurations, hrejected, hfailed, hfailed, hfailed, hfailed]
  decide +kernel

end CommitCoordinator
