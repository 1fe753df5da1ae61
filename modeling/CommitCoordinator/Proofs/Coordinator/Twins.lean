import CommitCoordinator.Proofs.Coordinator.Run
import CommitCoordinator.Proofs.Dialogue.Similar
import Mathlib.Data.Option.Basic

/-!
# Coordinators that cannot be told apart

Twins have the same partitions pending. Their quorums are the same, or one of them waits for no
checkpoint and the other has no quorum yet: the next report that both accept makes the quorums the
same. Twins take in the same events with the same results and remain twins.
-/

namespace CommitCoordinator

open Storage Dialogue

variable {R : Uuid → Uuid → Prop} {ticked : Bool}

/-! ## Results that are alike -/

/-- Errors or values that are related. -/
inductive ExceptRel {ε α β : Type} (Q : ε → ε → Prop) (P : α → β → Prop) :
    Except ε α → Except ε β → Prop where
  | error {e e' : ε} (h : Q e e') : ExceptRel Q P (.error e) (.error e')
  | ok {value : α} {other : β} (h : P value other) : ExceptRel Q P (.ok value) (.ok other)

section Alike

variable (R)

structure PartitionFiles.Alike (part other : PartitionFiles) : Prop where
  partition : part.partition = other.partition
  snapshot : R part.snapshot other.snapshot
  files : part.files = other.files

structure Payload.Alike (payload other : Payload) : Prop where
  request : payload.request.Alike R other.request
  manifests : List.Forall₂ (Manifest.Alike R) payload.manifests other.manifests

/-- Attempts that end in the same way. -/
inductive Attempt.Alike : Attempt → Attempt → Prop where
  | failed (attempt : Attempt) (h : ∀ payload, attempt ≠ .committed payload) : Alike attempt attempt
  | committed {payload other : Payload} (h : payload.Alike R other) :
      Alike (.committed payload) (.committed other)

/-- Summaries that differ in the new snapshots only. -/
structure CommitSummary.Alike (summary other : CommitSummary) : Prop where
  checkpoint : summary.checkpoint = other.checkpoint
  tableId : summary.tableId = other.tableId
  partitions : summary.partitions = other.partitions
  snapshots : List.Forall₂ R summary.snapshots other.snapshots
  files : summary.files = other.files

/-- The same error, or summaries that are alike, or no summaries. -/
abbrev ResultsAlike :
    Except CommitError (Option CommitSummary) → Except CommitError (Option CommitSummary) → Prop :=
  ExceptRel Eq (Option.Rel (CommitSummary.Alike R))

end Alike

/-! ## Attempts -/

theorem PartitionFiles.Alike.toAppend {part other : PartitionFiles} (h : part.Alike R other)
    (table : Table) : (part.toAppend table).Alike R (other.toAppend table) :=
  ⟨rfl, h.partition, rfl, .cons h.snapshot .nil⟩

theorem PartitionFiles.Alike.toManifest {part other : PartitionFiles} (h : part.Alike R other)
    (table : Table) (columns : String) (time time' : Int64) :
    (part.toManifest table columns time).Alike R (other.toManifest table columns time') where
  id := h.snapshot
  tableId := rfl
  partition := h.partition
  mode := rfl
  files := by
    change [] ++ part.files.map _ = [] ++ other.files.map _
    rw [h.files]

theorem Payload.alike_assemble {parts others : List PartitionFiles}
    (h : List.Forall₂ (PartitionFiles.Alike R) parts others) (table : Table) (columns : String)
    (time time' : Int64) :
    (assemble table parts columns time).Alike R (assemble table others columns time') where
  request := by
    refine ⟨rfl, ?_⟩
    change List.Forall₂ _ (parts.map _) (others.map _)
    rw [List.forall₂_map_left_iff, List.forall₂_map_right_iff]
    exact h.imp fun _ _ hpart ↦ hpart.toAppend table
  manifests := by
    change List.Forall₂ _ (parts.map _) (others.map _)
    rw [List.forall₂_map_left_iff, List.forall₂_map_right_iff]
    exact h.imp fun _ _ hpart ↦ hpart.toManifest table columns time time'

namespace Attempt

theorem similar_scanAll (options : SinkOptions) (fileMark : String) (partitions : List String) :
    Similar R ticked (ExceptRel (Attempt.Alike R) (List.Forall₂ (PartitionFiles.Alike R)))
      (scanAll services.listing options fileMark partitions)
      (scanAll services.listing options fileMark partitions) := by
  induction partitions with
  | nil => exact .pure (.ok .nil)
  | cons partition rest ih =>
    simp only [scanAll, scan, services_listing, ask_bind, bind_assoc, pure_bind]
    refine .ask (.list _) fun listed listed' hlisted ↦ ?_
    cases hlisted
    cases listed with
    | error cause => exact .pure (.error (.failed _ (by simp)))
    | ok entries =>
      refine .ask .freshId fun id id' hid ↦ ?_
      refine ih.bind fun parts others hparts ↦ .pure ?_
      cases hparts with
      | error h => exact .error h
      | ok hparts => exact .ok (.cons ⟨rfl, hid, rfl⟩ hparts)

theorem similar_prepare (options : SinkOptions) (report : Report) (partitions : List String) :
    Similar R ticked (ExceptRel (Attempt.Alike R) (Payload.Alike R))
      (prepare services options report partitions)
      (prepare services options report partitions) := by
  refine .ask (.lookup report.table) fun found found' hfound ↦ ?_
  cases hfound
  cases found with
  | error cause => exact .pure (.error (.failed _ nofun))
  | ok table =>
    refine (similar_scanAll options report.fileMark partitions).bind fun parts others hparts ↦ ?_
    cases hparts with
    | error h => exact .pure (.error h)
    | ok hparts =>
      refine .ask .currentTime fun time time' _ ↦ .pure ?_
      exact .ok (Payload.alike_assemble hparts table options.columns time time')

theorem similar_send {payload other : Payload} (h : payload.Alike R other) :
    Similar R ticked (Attempt.Alike R) (send services.catalog payload)
      (send services.catalog other) := by
  refine .ask (.append h.request true .append) fun accepted accepted' haccepted ↦ ?_
  cases haccepted
  rcases accepted with cause | _ | _
  · exact .pure (.failed _ nofun)
  · exact .pure (.failed _ nofun)
  · refine .ask (.insert h.manifests) fun inserted inserted' hinserted ↦ ?_
    cases hinserted
    cases inserted with
    | error cause => exact .pure (.failed _ nofun)
    | ok => exact .pure (.committed h)

/-- Two attempts to commit the same partitions. -/
theorem similar_run (options : SinkOptions) (report : Report) (partitions : List String) :
    Similar R ticked (Attempt.Alike R) (run services options report partitions)
      (run services options report partitions) := by
  refine (similar_prepare options report partitions).bind fun prepared prepared' h ↦ ?_
  cases h with
  | error h => exact .pure h
  | ok h => exact similar_send h

end Attempt

theorem flatMap_files_eq {manifests others : List Manifest}
    (h : List.Forall₂ (Manifest.Alike R) manifests others) :
    manifests.flatMap Manifest.files = others.flatMap Manifest.files := by
  induction h with
  | nil => rfl
  | cons hmanifest _ ih => rw [List.flatMap_cons, List.flatMap_cons, hmanifest.files, ih]

theorem Payload.Alike.fileCount_eq {payload other : Payload} (h : payload.Alike R other) :
    payload.fileCount = other.fileCount := by
  rw [fileCount, fileCount, flatMap_files_eq h.manifests]

theorem Payload.Alike.snapshots {payload other : Payload} (h : payload.Alike R other) :
    List.Forall₂ R payload.snapshots other.snapshots := by
  unfold Payload.snapshots
  rw [List.forall₂_map_left_iff, List.forall₂_map_right_iff]
  exact h.manifests.imp fun _ _ hmanifest ↦ hmanifest.id

/-- What an attempt leads to is the same for attempts that end in the same way. -/
theorem Attempt.Alike.events_eq {attempt other : Attempt} (h : attempt.Alike R other)
    (table : String) : attempt.events table = other.events table := by
  cases h with
  | failed => rfl
  | committed h => rw [events, events, h.manifests.length_eq, h.fileCount_eq]

theorem Attempt.Alike.isAppended_eq {attempt other : Attempt} (h : attempt.Alike R other) :
    attempt.isAppended = other.isAppended := by
  cases h <;> rfl

theorem Attempt.Alike.resultOf {attempt other : Attempt} (h : attempt.Alike R other)
    (report : Report) (partitions : List String) :
    ResultsAlike R (Coordinator.resultOf report partitions attempt)
      (Coordinator.resultOf report partitions other) := by
  cases h with
  | failed _ h =>
    cases attempt with
    | committed payload => exact absurd rfl (h payload)
    | _ => exact .error rfl
  | committed h =>
    have htable := congrArg Table.id h.request.table
    exact .ok (.some ⟨rfl, htable, rfl, h.snapshots, h.fileCount_eq⟩)

/-! ## Twins -/

namespace Coordinator

/-- Whether two coordinators of a number of writers cannot be told apart; the flag tells whether
they have seen the same watermark. -/
structure Twin (ticked : Bool) (total : UInt32) (coordinator other : Coordinator) : Prop where
  label : coordinator.label = other.label
  options : coordinator.options = other.options
  pending : ∃ pending pending', coordinator.pending = some pending ∧
    other.pending = some pending' ∧ pending.partitions = pending'.partitions
  quorum : coordinator.quorum = other.quorum ∨ other.quorum = none ∧
    ∃ quorum, coordinator.quorum = some quorum ∧ quorum.total = total ∧ quorum.openCount = 0
  watermark : ticked = true → coordinator.watermark = other.watermark

namespace Twin

variable {total : UInt32} {coordinator other : Coordinator}

theorem isInitialized_eq (h : coordinator.Twin ticked total other) :
    coordinator.isInitialized = true ∧ other.isInitialized = true := by
  obtain ⟨pending, pending', hpending, hpending', -⟩ := h.pending
  rw [isInitialized, isInitialized, hpending, hpending']
  exact ⟨rfl, rfl⟩

theorem pendingList_eq (h : coordinator.Twin ticked total other) :
    coordinator.pendingList = other.pendingList := by
  obtain ⟨pending, pending', hpending, hpending', hpartitions⟩ := h.pending
  rw [pendingList_eq_toList hpending, pendingList_eq_toList hpending', Pending.toList,
    Pending.toList, hpartitions]

/-- A quorum that waits for nothing is the one that its number of writers begins with. -/
theorem create_eq {quorum : Quorum} (h : quorum.openCount = 0) :
    Quorum.create quorum.total = .ok quorum := by
  obtain ⟨total, hzero, ⟨entries, hnodup⟩⟩ := quorum
  obtain rfl : entries = [] := List.length_eq_zero_iff.1 h
  exact dif_neg hzero

/-- Twins check a report against the same quorum. -/
theorem quorumFor_eq (h : coordinator.Twin ticked total other) {report : Report}
    (hcount : report.taskCount = total) :
    coordinator.quorumFor report = other.quorumFor report := by
  unfold quorumFor
  rcases h.quorum with hsame | ⟨hnone, quorum, hquorum, htotal, hopen⟩
  · rw [hsame]
  · rw [hnone, hquorum]
    dsimp only
    rw [hcount, ← htotal, create_eq hopen]

/-- Twins receive a report alike, and have the same quorum if they accept it. -/
theorem receive (h : coordinator.Twin ticked total other) {report : Report}
    (hcount : report.taskCount = total) :
    ExceptRel Eq (fun received received' ↦
        received.1.Twin ticked total received'.1 ∧ received.2 = received'.2)
      (coordinator.receive report) (other.receive report) := by
  obtain ⟨pending, pending', hpending, hpending', hpartitions⟩ := h.pending
  rw [Coordinator.receive, Coordinator.receive, hpending, hpending', h.quorumFor_eq hcount]
  dsimp only
  cases other.quorumFor report with
  | error cause => exact .error rfl
  | ok quorum =>
    refine .ok ⟨⟨h.label, h.options, ⟨_, _, rfl, rfl, ?_⟩, .inl rfl, h.watermark⟩, rfl⟩
    rw [Pending.observeAll, Pending.observeAll, hpartitions]

theorem drain (h : coordinator.Twin ticked total other) :
    coordinator.drain.1 = other.drain.1 ∧ coordinator.drain.2.Twin ticked total other.drain.2 := by
  obtain ⟨pending, pending', hpending, hpending', hpartitions⟩ := h.pending
  refine ⟨by rw [drain_fst, drain_fst, h.pendingList_eq], ?_⟩
  rw [Coordinator.drain, Coordinator.drain, hpending, hpending']
  exact ⟨h.label, h.options, ⟨_, _, rfl, rfl, rfl⟩, h.quorum, h.watermark⟩

theorem settle (h : coordinator.Twin ticked total other) (partitions : List String)
    {attempt attempt' : Attempt} (hattempt : attempt.Alike R attempt') :
    (coordinator.settle partitions attempt).Twin ticked total
      (other.settle partitions attempt') := by
  rw [Coordinator.settle, Coordinator.settle, hattempt.isAppended_eq]
  split
  · exact h
  · obtain ⟨pending, pending', hpending, hpending', hpartitions⟩ := h.pending
    refine ⟨h.label, h.options, ⟨_, _, congrArg (Option.map _) hpending,
      congrArg (Option.map _) hpending', ?_⟩, h.quorum, h.watermark⟩
    change (SequencedSet.ofList partitions).insertAll pending.partitions.elements =
      (SequencedSet.ofList partitions).insertAll pending'.partitions.elements
    rw [hpartitions]

theorem similar_commit (h : coordinator.Twin ticked total other) (report : Report) :
    Similar R ticked (fun outcome outcome' ↦ ResultsAlike R outcome.1 outcome'.1 ∧
        outcome.2.Twin ticked total outcome'.2)
      (coordinator.commit services report) (other.commit services report) := by
  obtain ⟨hinit, hinit'⟩ := h.isInitialized_eq
  obtain ⟨hpartitions, hdrained⟩ := h.drain
  simp only [commit, hinit, hinit', Bool.not_true, Bool.false_eq_true, if_false]
  rw [hpartitions, h.options, h.label]
  split
  · exact .pure ⟨.ok .none, hdrained⟩
  · refine (Attempt.similar_run other.options report _).bind fun attempt attempt' hattempt ↦ ?_
    rw [hattempt.events_eq]
    refine (Similar.emitAll _).bind fun _ _ _ ↦ .pure ?_
    exact ⟨hattempt.resultOf report _, hdrained.settle _ hattempt⟩

theorem similar_process (h : coordinator.Twin ticked total other) {report : Report}
    (hcount : report.taskCount = total) :
    Similar R ticked (fun outcome outcome' ↦ ResultsAlike R outcome.1 outcome'.1 ∧
        outcome.2.Twin ticked total outcome'.2)
      (coordinator.process services report) (other.process services report) := by
  have hreceive := h.receive hcount
  unfold process
  cases hreceived : coordinator.receive report with
  | error e =>
    rw [hreceived] at hreceive
    generalize other.receive report = answer at hreceive
    cases hreceive with
    | error he =>
      cases he
      cases e with
      | quorum cause =>
        rw [h.label]
        exact .ask (.emit _) fun _ _ _ ↦ .pure ⟨.error rfl, h⟩
      | _ => exact .pure ⟨.error rfl, h⟩
  | ok received =>
    rw [hreceived] at hreceive
    generalize other.receive report = answer at hreceive
    cases hreceive with
    | @ok _ received' htwin =>
      obtain ⟨after, completed⟩ := received
      obtain ⟨after', completed'⟩ := received'
      obtain ⟨htwin, hcompleted⟩ := htwin
      cases hcompleted
      cases completed with
      | false => exact .pure ⟨.ok .none, htwin⟩
      | true =>
        change Similar R ticked _ (.ask (.emit (.quorumReached after.label)) _)
          (.ask (.emit (.quorumReached after'.label)) _)
        rw [htwin.label]
        exact .ask (.emit _) fun _ _ _ ↦ htwin.similar_commit report

theorem similar_snapshot (h : coordinator.Twin ticked total other) (checkpoint : Int64) :
    Similar R ticked Eq (coordinator.snapshot store checkpoint)
      (other.snapshot store checkpoint) := by
  obtain ⟨pending, pending', hpending, hpending', hpartitions⟩ := h.pending
  have hlist : pending.toList = pending'.toList := congrArg SequencedSet.elements hpartitions
  have hsize : pending.size = pending'.size := congrArg SequencedSet.size hpartitions
  unfold Coordinator.snapshot
  rw [hpending, hpending']
  dsimp only
  refine .ask (.store (.cons ⟨rfl, rfl, hlist, h.watermark⟩ .nil)) fun answer answer' hanswer ↦ ?_
  cases hanswer
  cases answer with
  | error cause => exact .pure rfl
  | ok =>
    rw [h.label, hsize]
    exact .ask (.emit _) fun _ _ _ ↦ .pure rfl

/-- Twins take in an event alike and remain twins; after a watermark they have seen the same. -/
theorem similar_handle (h : coordinator.Twin ticked total other) {event : HostEvent}
    (hcount : ∀ report, event = .record report → report.taskCount = total) :
    Similar R ticked (fun outcome outcome' ↦ ResultsAlike R outcome.1 outcome'.1 ∧
        outcome.2.Twin (ticked || event.kind = .watermark) total outcome'.2)
      (coordinator.handle services store event) (other.handle services store event) := by
  cases event with
  | record report =>
    rw [show (ticked || decide (HostEvent.kind (.record report) = .watermark)) = ticked from
      Bool.or_false ticked]
    exact h.similar_process (hcount report rfl)
  | watermark timestamp =>
    refine .pure ⟨.ok .none, h.label, h.options, ?_, h.quorum, fun _ ↦ rfl⟩
    exact h.pending
  | checkpoint id =>
    refine (h.similar_snapshot id).bind fun result result' hresult ↦ .pure ?_
    cases hresult
    rw [show (ticked || decide (HostEvent.kind (.checkpoint id) = .watermark)) = ticked from
      Bool.or_false ticked]
    cases result with
    | error e => exact ⟨.error rfl, h⟩
    | ok => exact ⟨.ok .none, h⟩

end Twin

end Coordinator

/-! ## Steps and runs of twins -/

theorem Step.answer_of_mem {answer : (call : Call) → call.Answer} {before : Coordinator}
    {event : HostEvent} {exchange : Exchange}
    (h : exchange ∈ (Step.of answer before event).transcript) :
    exchange.answer = answer exchange.call :=
  answer_of_mem_replay h

/-- Whether the event is a watermark. -/
def Step.isTick (step : Step) : Bool :=
  step.event.kind = .watermark

/-- Steps of two coordinators with the same event, transcripts and results that are alike, and the
same partitions pending afterwards. -/
structure Step.Alike (R : Uuid → Uuid → Prop) (ticked : Bool) (step other : Step) : Prop where
  event : step.event = other.event
  transcript : List.Forall₂ (Exchange.Alike R ticked) step.transcript other.transcript
  result : ResultsAlike R step.result other.result
  pending : step.after.pendingList = other.after.pendingList

/-- Runs of two coordinators whose steps are alike one by one. Before the first watermark the
stored snapshots may differ in their watermarks, after it they are the same. -/
inductive Indistinguishable (R : Uuid → Uuid → Prop) : Bool → List Step → List Step → Prop where
  | nil (ticked : Bool) : Indistinguishable R ticked [] []
  | cons {ticked : Bool} {step other : Step} {steps others : List Step}
      (h : step.Alike R ticked other)
      (hrest : Indistinguishable R (ticked || step.isTick) steps others) :
      Indistinguishable R ticked (step :: steps) (other :: others)

theorem Run.eq_of_nil {start current : Coordinator} (h : Run start [] current) :
    current = start := by
  generalize hsteps : ([] : List Step) = steps at h
  cases h with
  | nil => rfl
  | snoc => simp at hsteps

/-- The first step of a run begins where the run does. -/
theorem Run.head {start current : Coordinator} {step : Step} {steps : List Step}
    (h : Run start (step :: steps) current) :
    step.before = start ∧ step.Valid ∧ Run step.after steps current := by
  have hsplit : Run start ([] ++ step :: steps) current := h
  obtain ⟨hstart, hvalid, hrest⟩ := hsplit.split_at
  exact ⟨hstart.eq_of_nil, hvalid, hrest⟩

/-- Twins that take in the same events in concordant surroundings cannot be told apart. -/
theorem Coordinator.Twin.indistinguishable {total : UInt32} {coordinator other : Coordinator}
    (h : coordinator.Twin ticked total other) {steps others : List Step}
    {current current' : Coordinator} (hrun : Run coordinator steps current)
    (hrun' : Run other others current')
    (hevents : steps.map Step.event = others.map Step.event)
    (hcount : ∀ step ∈ steps, ∀ report, step.event = .record report → report.taskCount = total)
    (hanswers : Concordant R (steps.flatMap Step.transcript) (others.flatMap Step.transcript)) :
    Indistinguishable R ticked steps others := by
  induction steps generalizing ticked coordinator other others with
  | nil =>
    obtain rfl : others = [] := List.map_eq_nil_iff.1 hevents.symm
    exact .nil ticked
  | cons step rest ih =>
    cases others with
    | nil => cases hevents
    | cons step' rest' =>
      obtain ⟨hevent, hevents⟩ := List.cons.inj hevents
      obtain ⟨rfl, hvalid, hrest⟩ := hrun.head
      obtain ⟨rfl, hvalid', hrest'⟩ := hrun'.head
      rw [List.flatMap_cons, List.flatMap_cons] at hanswers
      unfold Step.Valid at hvalid hvalid'
      rw [← hevent] at hvalid'
      obtain ⟨htranscript, ⟨hresult, htwin⟩, hanswers⟩ :=
        (h.similar_handle (hcount step List.mem_cons_self)).alike hvalid hvalid' hanswers
      refine .cons ⟨hevent, htranscript, hresult, htwin.pendingList_eq⟩ ?_
      exact ih htwin hrest hrest' hevents
        (fun step hstep ↦ hcount step (List.mem_cons_of_mem _ hstep)) hanswers

end CommitCoordinator
