import CommitCoordinator.Proofs.Collection.FirstOccurrences
import CommitCoordinator.Proofs.Coordinator.Course

/-!
# Runs of a coordinator

A report is refused, awaited, or completes its checkpoint; only in the last case, and only with
pending partitions, there is an attempt to commit. An attempt that appended its snapshots leaves
nothing pending, and every other one leaves the coordinator as it was before the drain.

A run is a sequence of events together with any answers that the surroundings could have given.
-/

namespace CommitCoordinator

open Storage Dialogue

namespace Coordinator

/-- All that an accepted report changes. -/
theorem receive_eq_ok {before received : Coordinator} {report : Report} {completed : Bool}
    (h : before.receive report = .ok (received, completed)) :
    ∃ pending quorum, before.pending = some pending ∧ before.quorumFor report = .ok quorum ∧
      completed = (quorum.add report.checkpoint report.task).2 ∧
      received = { before with
        pending := some (pending.observeAll report.partitions.elements)
        quorum := some (quorum.add report.checkpoint report.task).1 } := by
  unfold receive at h
  split at h
  · cases h
  · rename_i pending hpending
    split at h
    · cases h
    · rename_i quorum hquorum
      cases h
      exact ⟨pending, quorum, hpending, hquorum, rfl, rfl⟩

theorem pendingList_eq_toList {coordinator : Coordinator} {pending : Pending}
    (h : coordinator.pending = some pending) : coordinator.pendingList = pending.toList := by
  rw [pendingList, h]
  rfl

theorem nodup_pendingList (coordinator : Coordinator) : coordinator.pendingList.Nodup := by
  unfold pendingList
  cases coordinator.pending with
  | none => exact List.nodup_nil
  | some pending => exact pending.nodup_toList

/-- An accepted report makes its partitions pending behind the others. -/
theorem pendingList_receive {before received : Coordinator} {report : Report} {completed : Bool}
    (h : before.receive report = .ok (received, completed)) :
    received.pendingList = (before.pendingList ++ report.partitions.elements).eraseDups := by
  obtain ⟨pending, quorum, hpending, -, -, rfl⟩ := receive_eq_ok h
  rw [pendingList_eq_toList hpending]
  exact pending.toList_observeAll _

@[simp] theorem pendingList_start (coordinator : Coordinator) (pending : Pending) :
    (coordinator.start pending).pendingList = pending.toList := rfl

theorem drain_fst (coordinator : Coordinator) : coordinator.drain.1 = coordinator.pendingList := by
  unfold drain pendingList
  cases coordinator.pending <;> rfl

@[simp] theorem pendingList_drain (coordinator : Coordinator) :
    coordinator.drain.2.pendingList = [] := by
  unfold drain
  split
  · rename_i h
    rw [pendingList, h]
    rfl
  · rfl

/-- Giving back all that a drain took out undoes the drain. -/
theorem giveBack_drain (coordinator : Coordinator) :
    coordinator.drain.2.giveBack coordinator.drain.1 = coordinator := by
  obtain ⟨label, options, pending, quorum, watermark⟩ := coordinator
  cases pending with
  | none => rfl
  | some pending =>
    exact congrArg (fun p ↦ (⟨label, options, some p, quorum, watermark⟩ : Coordinator))
      pending.giveBack_drain

/-- The coordinator after an attempt to commit what was pending. -/
def afterAttempt (received : Coordinator) (attempt : Attempt) : Coordinator :=
  if attempt.isAppended then received.drain.2 else received

theorem settle_drain (received : Coordinator) (attempt : Attempt) :
    received.drain.2.settle received.drain.1 attempt = received.afterAttempt attempt := by
  rw [settle, giveBack_drain, afterAttempt]

/-- The events of a report that is refused. -/
def refusal (label : String) : CommitError → List Exchange
  | .quorum _ => [emitted (.quorumViolated label)]
  | _ => []

/-- How a coordinator processes a report. -/
inductive Processed (before : Coordinator) (report : Report) :
    List Exchange → Except CommitError (Option CommitSummary) → Coordinator → Prop where
  | refused {cause : CommitError} (hreceive : before.receive report = .error cause) :
      Processed before report (refusal before.label cause) (.error cause) before
  | awaited {received : Coordinator} (hreceive : before.receive report = .ok (received, false)) :
      Processed before report [] (.ok none) received
  | idle {received : Coordinator} (hreceive : before.receive report = .ok (received, true))
      (hpending : received.pendingList = []) :
      Processed before report [emitted (.quorumReached received.label)] (.ok none)
        received.drain.2
  | attempted {received : Coordinator} {exchanges : List Exchange} {attempt : Attempt}
      (hreceive : before.receive report = .ok (received, true))
      (hpending : received.pendingList ≠ [])
      (hcourse : Attempt.Course received.options report received.pendingList exchanges attempt) :
      Processed before report
        (emitted (.quorumReached received.label) ::
          (exchanges ++ (attempt.events received.label).map emitted))
        (resultOf report received.pendingList attempt) (received.afterAttempt attempt)

/-- What a report that completes its checkpoint leads to. -/
theorem Processed.of_completed {before received after : Coordinator} {report : Report}
    {transcript : List Exchange} {result : Except CommitError (Option CommitSummary)}
    (h : before.Processed report transcript result after)
    (hreceive : before.receive report = .ok (received, true)) :
    (received.pendingList = [] ∧ transcript = [emitted (.quorumReached received.label)] ∧
      result = .ok none ∧ after = received.drain.2) ∨
    (received.pendingList ≠ [] ∧ ∃ exchanges attempt,
      Attempt.Course received.options report received.pendingList exchanges attempt ∧
        transcript = emitted (.quorumReached received.label) ::
          (exchanges ++ (attempt.events received.label).map emitted) ∧
        result = resultOf report received.pendingList attempt ∧
        after = received.afterAttempt attempt) := by
  cases h with
  | refused hrefuse => rw [hreceive] at hrefuse; cases hrefuse
  | awaited hawait => rw [hreceive] at hawait; cases hawait
  | idle hidle hpending =>
    obtain ⟨rfl⟩ : _ = received := (Prod.mk.inj (Except.ok.inj (hidle.symm.trans hreceive))).1
    exact .inl ⟨hpending, rfl, rfl, rfl⟩
  | attempted hattempt hpending hcourse =>
    obtain ⟨rfl⟩ : _ = received := (Prod.mk.inj (Except.ok.inj (hattempt.symm.trans hreceive))).1
    exact .inr ⟨hpending, _, _, hcourse, rfl, rfl, rfl⟩

theorem Processed.of_awaited {before received after : Coordinator} {report : Report}
    {transcript : List Exchange} {result : Except CommitError (Option CommitSummary)}
    (h : before.Processed report transcript result after)
    (hreceive : before.receive report = .ok (received, false)) :
    transcript = [] ∧ result = .ok none ∧ after = received := by
  cases h with
  | refused hrefuse => rw [hreceive] at hrefuse; cases hrefuse
  | awaited hawait =>
    obtain ⟨rfl⟩ : _ = received := (Prod.mk.inj (Except.ok.inj (hawait.symm.trans hreceive))).1
    exact ⟨rfl, rfl, rfl⟩
  | idle hidle _ => rw [hreceive] at hidle; cases hidle
  | attempted hattempt _ _ => rw [hreceive] at hattempt; cases hattempt

theorem Processed.of_refused {before after : Coordinator} {report : Report} {cause : CommitError}
    {transcript : List Exchange} {result : Except CommitError (Option CommitSummary)}
    (h : before.Processed report transcript result after)
    (hreceive : before.receive report = .error cause) :
    transcript = refusal before.label cause ∧ result = .error cause ∧ after = before := by
  cases h with
  | refused hrefuse =>
    obtain rfl := Except.error.inj (hrefuse.symm.trans hreceive)
    exact ⟨rfl, rfl, rfl⟩
  | awaited hawait => rw [hreceive] at hawait; cases hawait
  | idle hidle _ => rw [hreceive] at hidle; cases hidle
  | attempted hattempt _ _ => rw [hreceive] at hattempt; cases hattempt

/-- What a coordinator keeps while it processes reports. -/
def fixed (coordinator : Coordinator) : String × SinkOptions × Int64 :=
  (coordinator.label, coordinator.options, coordinator.watermark)

theorem fixed_receive {before received : Coordinator} {report : Report} {completed : Bool}
    (h : before.receive report = .ok (received, completed)) : received.fixed = before.fixed := by
  obtain ⟨pending, quorum, -, -, -, rfl⟩ := receive_eq_ok h
  rfl

@[simp] theorem fixed_drain (coordinator : Coordinator) :
    coordinator.drain.2.fixed = coordinator.fixed := by
  unfold drain
  split <;> rfl

theorem Processed.fixed_eq {before after : Coordinator} {report : Report}
    {transcript : List Exchange} {result : Except CommitError (Option CommitSummary)}
    (h : before.Processed report transcript result after) : after.fixed = before.fixed := by
  cases h with
  | refused hreceive => rfl
  | awaited hreceive => exact fixed_receive hreceive
  | idle hreceive hpending => rw [fixed_drain, fixed_receive hreceive]
  | attempted hreceive hpending hcourse =>
    unfold afterAttempt
    split
    · rw [fixed_drain, fixed_receive hreceive]
    · exact fixed_receive hreceive

theorem processed_of_yields_commit {before received : Coordinator} {report : Report}
    {transcript : List Exchange} {result : Except CommitError (Option CommitSummary)}
    {after : Coordinator} (hreceive : before.receive report = .ok (received, true))
    (h : Yields (received.commit services report) transcript (result, after)) :
    Processed before report (emitted (.quorumReached received.label) :: transcript) result
      after := by
  have hinit : received.isInitialized = true := by
    obtain ⟨pending, quorum, -, -, -, rfl⟩ := receive_eq_ok hreceive
    rfl
  simp only [commit, hinit, Bool.not_true, Bool.false_eq_true, if_false, drain_fst] at h
  split at h
  · rename_i hempty
    obtain ⟨rfl, hresult⟩ := yields_pure.1 h
    cases hresult
    exact .idle hreceive (List.isEmpty_iff.1 hempty)
  · rename_i hempty
    obtain ⟨exchanges, emitting, attempt, rfl, hrun, h⟩ := yields_bind.1 h
    obtain ⟨events, rest, _, rfl, hevents, h⟩ := yields_bind.1 h
    obtain ⟨rfl, hresult⟩ := yields_pure.1 h
    cases hresult
    rw [yields_emitAll.1 hevents, ← drain_fst, settle_drain, drain_fst, List.append_nil]
    exact .attempted hreceive (fun hnil ↦ hempty (List.isEmpty_iff.2 hnil))
      (Attempt.course_of_yields_run hrun)

theorem processed_of_yields {before : Coordinator} {report : Report}
    {transcript : List Exchange} {result : Except CommitError (Option CommitSummary)}
    {after : Coordinator}
    (h : Yields (before.process services report) transcript (result, after)) :
    Processed before report transcript result after := by
  unfold process at h
  split at h
  · rename_i cause hreceive
    simp only [emit_eq, ask_bind, done_eq, pure_bind, yields_ask] at h
    obtain ⟨_, rest, rfl, h⟩ := h
    obtain ⟨rfl, hresult⟩ := yields_pure.1 h
    cases hresult
    exact .refused hreceive
  · rename_i cause hcause hreceive
    obtain ⟨rfl, hresult⟩ := yields_pure.1 h
    cases hresult
    have hsilent : refusal before.label cause = [] := by
      cases cause with
      | quorum violation => exact absurd rfl (hcause violation)
      | _ => rfl
    rw [← hsilent]
    exact .refused hreceive
  · rename_i received hreceive
    obtain ⟨rfl, hresult⟩ := yields_pure.1 h
    cases hresult
    exact .awaited hreceive
  · rename_i received hreceive
    simp only [emit_eq, ask_bind, done_eq, pure_bind, yields_ask] at h
    obtain ⟨_, rest, rfl, h⟩ := h
    exact processed_of_yields_commit hreceive h

/-- How a coordinator sets its pending partitions up from what the store holds. -/
inductive Launched (before : Coordinator) (restored : Bool) :
    List Exchange → Except CommitError Unit → Coordinator → Prop where
  | twice (hinit : before.isInitialized = true) :
      Launched before restored [] (.error .alreadyInitialized) before
  | failed (cause : StateError) (hrestored : restored = true) :
      Launched before restored [⟨.load, .error cause⟩] (.error (.state cause)) before
  | started (stored : List Snapshot) (hstored : restored = false → stored = []) :
      Launched before restored
        ((if restored then [⟨.load, .ok stored⟩] else []) ++
          [emitted (.pendingPartitions before.label (Pending.restore stored).size)])
        (.ok ()) (before.start (Pending.restore stored))

theorem launched_of_yields {before : Coordinator} {restored : Bool} {transcript : List Exchange}
    {result : Except CommitError Unit} {after : Coordinator}
    (h : Yields (before.launch store restored) transcript (result, after)) :
    Launched before restored transcript result after := by
  unfold launch at h
  split at h
  · rename_i hinit
    obtain ⟨rfl, hresult⟩ := yields_pure.1 h
    cases hresult
    exact .twice hinit
  · obtain ⟨loading, rest, loaded, rfl, hload, hrest⟩ := yields_bind.1 h
    have hanswer : (restored = true ∧ loading = [⟨.load, loaded⟩]) ∨
        (restored = false ∧ loading = [] ∧ loaded = .ok []) := by
      cases restored with
      | false =>
        obtain ⟨rfl, rfl⟩ := yields_pure.1 hload
        exact .inr ⟨rfl, rfl, rfl⟩
      | true =>
        obtain ⟨answer, silence, rfl, hanswer⟩ := yields_ask.1 hload
        obtain ⟨rfl, rfl⟩ := yields_pure.1 hanswer
        exact .inl ⟨rfl, rfl⟩
    cases loaded with
    | error cause =>
      obtain ⟨rfl, hresult⟩ := yields_pure.1 hrest
      cases hresult
      obtain ⟨hrestored, rfl⟩ | ⟨-, -, himpossible⟩ := hanswer
      · exact .failed cause hrestored
      · cases himpossible
    | ok stored =>
      simp only [emit_eq, ask_bind, done_eq, pure_bind, yields_ask] at hrest
      obtain ⟨_, silence, rfl, hpure⟩ := hrest
      obtain ⟨rfl, hresult⟩ := yields_pure.1 hpure
      cases hresult
      obtain ⟨rfl, rfl⟩ | ⟨rfl, rfl, hnone⟩ := hanswer
      · exact .started stored fun hfalse ↦ absurd hfalse Bool.noConfusion
      · cases hnone
        exact .started [] fun _ ↦ rfl

/-- How a coordinator stores its pending partitions for a checkpoint. -/
inductive Stored (before : Coordinator) (checkpoint : Int64) :
    List Exchange → Except CommitError Unit → Prop where
  | uninitialized (hpending : before.pending = none) :
      Stored before checkpoint [] (.error .notInitialized)
  | failed {pending : Pending} (cause : StateError) (hpending : before.pending = some pending) :
      Stored before checkpoint
        [⟨.store [pending.snapshot checkpoint before.watermark], .error cause⟩]
        (.error (.state cause))
  | stored {pending : Pending} (hpending : before.pending = some pending) :
      Stored before checkpoint
        [⟨.store [pending.snapshot checkpoint before.watermark], .ok ()⟩,
          emitted (.pendingPartitions before.label pending.size)] (.ok ())

theorem stored_of_yields {before : Coordinator} {checkpoint : Int64} {transcript : List Exchange}
    {result : Except CommitError Unit}
    (h : Yields (before.snapshot store checkpoint) transcript result) :
    Stored before checkpoint transcript result := by
  unfold snapshot at h
  split at h
  · rename_i hpending
    obtain ⟨rfl, rfl⟩ := yields_pure.1 h
    exact .uninitialized hpending
  · rename_i pending hpending
    simp only [store_store, ask_bind, done_eq, pure_bind, yields_ask] at h
    obtain ⟨answer, rest, rfl, hrest⟩ := h
    rcases answer with cause | _
    · obtain ⟨rfl, rfl⟩ := yields_pure.1 hrest
      exact .failed cause hpending
    · simp only [emit_eq, ask_bind, done_eq, pure_bind, yields_ask] at hrest
      obtain ⟨_, silence, rfl, hpure⟩ := hrest
      obtain ⟨rfl, rfl⟩ := yields_pure.1 hpure
      exact .stored hpending

end Coordinator

/-! ## Steps and runs -/

/-- An event that a coordinator took in, with what it asked and how it answered. -/
structure Step where
  before : Coordinator
  event : HostEvent
  transcript : List Exchange
  result : Except CommitError (Option CommitSummary)
  after : Coordinator

/-- Whether the answers of the surroundings make the coordinator behave as the step says. -/
def Step.Valid (step : Step) : Prop :=
  Yields (step.before.handle services store step.event) step.transcript (step.result, step.after)

/-- Steps of a coordinator, each from where the one before it ended. -/
inductive Run (start : Coordinator) : List Step → Coordinator → Prop where
  | nil : Run start [] start
  | snoc {steps : List Step} {step : Step} (hrun : Run start steps step.before)
      (hstep : step.Valid) : Run start (steps ++ [step]) step.after

namespace Step

/-- The step of a coordinator that gets the given answers. -/
def of (answer : (call : Call) → call.Answer) (before : Coordinator) (event : HostEvent) : Step :=
  let (transcript, result, after) := replay answer (before.handle services store event)
  ⟨before, event, transcript, result, after⟩

theorem valid_of (answer : (call : Call) → call.Answer) (before : Coordinator)
    (event : HostEvent) : (of answer before event).Valid :=
  yields_replay answer _

theorem Valid.processed {step : Step} {report : Report} (h : step.Valid)
    (hevent : step.event = .record report) :
    step.before.Processed report step.transcript step.result step.after := by
  obtain ⟨before, event, transcript, result, after⟩ := step
  cases hevent
  exact Coordinator.processed_of_yields h

theorem Valid.stored {step : Step} {checkpoint : Int64} (h : step.Valid)
    (hevent : step.event = .checkpoint checkpoint) :
    ∃ result, step.before.Stored checkpoint step.transcript result ∧
      step.result = result.map (fun _ ↦ none) ∧ step.after = step.before := by
  obtain ⟨before, event, transcript, result, after⟩ := step
  cases hevent
  obtain ⟨front, back, stored, rfl, hstored, h⟩ := yields_bind.1 h
  obtain ⟨rfl, hresult⟩ := yields_pure.1 h
  cases hresult
  rw [List.append_nil]
  exact ⟨stored, Coordinator.stored_of_yields hstored, rfl, rfl⟩

theorem Valid.observed {step : Step} {timestamp : Int64} (h : step.Valid)
    (hevent : step.event = .watermark timestamp) :
    step.transcript = [] ∧ step.result = .ok none ∧
      step.after = step.before.observeWatermark timestamp := by
  obtain ⟨before, event, transcript, result, after⟩ := step
  cases hevent
  obtain ⟨rfl, hresult⟩ := yields_pure.1 h
  obtain ⟨hanswer, hafter⟩ := Prod.mk.inj hresult
  exact ⟨rfl, hanswer, hafter⟩

/-- Whether the catalog accepted a request to append. -/
def isAccepted (step : Step) : Bool :=
  step.transcript.any Exchange.isAccepted

/-- Whether a lookup or a listing failed or a request to append was not accepted. -/
def isObstructed (step : Step) : Bool :=
  step.transcript.any Exchange.isObstacle

end Step

theorem Run.valid {start current : Coordinator} {steps : List Step} (h : Run start steps current) :
    ∀ step ∈ steps, step.Valid := by
  induction h with
  | nil => exact fun step hmem ↦ absurd hmem List.not_mem_nil
  | snoc _ hstep ih =>
    intro step hmem
    rcases List.mem_append.1 hmem with hmem | hmem
    · exact ih step hmem
    · rw [List.mem_singleton.1 hmem]
      exact hstep

/-- A run ends one part of its steps where the next one begins. -/
theorem Run.split {start current : Coordinator} {front back : List Step}
    (h : Run start (front ++ back) current) :
    ∃ middle, Run start front middle ∧ Run middle back current := by
  generalize hsteps : front ++ back = steps at h
  induction h generalizing back with
  | nil =>
    obtain ⟨rfl, rfl⟩ := List.append_eq_nil_iff.1 hsteps
    exact ⟨start, .nil, .nil⟩
  | @snoc steps step hrun hstep ih =>
    rcases List.eq_nil_or_concat back with rfl | ⟨back, last, rfl⟩
    · rw [List.append_nil] at hsteps
      exact ⟨step.after, hsteps ▸ hrun.snoc hstep, .nil⟩
    · rw [List.concat_eq_append, ← List.append_assoc] at hsteps
      obtain ⟨hfront, hlast⟩ := List.append_inj' hsteps rfl
      cases hlast
      obtain ⟨middle, hearlier, hlater⟩ := ih hfront
      rw [List.concat_eq_append]
      exact ⟨middle, hearlier, hlater.snoc hstep⟩

/-- A step of a run begins where the steps before it end. -/
theorem Run.split_at {start current : Coordinator} {front back : List Step} {step : Step}
    (h : Run start (front ++ step :: back) current) :
    Run start front step.before ∧ step.Valid ∧ Run step.after back current := by
  rw [List.append_cons] at h
  obtain ⟨middle, hfront, hback⟩ := h.split
  generalize hsteps : front ++ [step] = steps at hfront
  cases hfront with
  | nil => simp at hsteps
  | snoc hrun hstep =>
    obtain ⟨rfl, hlast⟩ := List.append_inj' hsteps rfl
    cases hlast
    exact ⟨hrun, hstep, hback⟩

end CommitCoordinator
