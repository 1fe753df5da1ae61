import CommitCoordinator.Proofs.Coordinator.Run

/-!
# Conservation of pending partitions

A coordinator neither loses nor repeats a partition. What is pending after a run is what was
restored, followed by the partitions of every report that passed the quorum check, until the
catalog accepts a request to append: then only the reports after it count. Failures before that
acceptance put everything back in order, and failures after it put nothing back.
-/

namespace CommitCoordinator

open Dialogue

namespace Coordinator

@[simp] theorem isInitialized_drain (coordinator : Coordinator) :
    coordinator.drain.2.isInitialized = coordinator.isInitialized := by
  unfold drain
  split
  · rfl
  · rename_i h
    rw [isInitialized, isInitialized, h]
    rfl

theorem isInitialized_receive {before received : Coordinator} {report : Report} {completed : Bool}
    (h : before.receive report = .ok (received, completed)) : received.isInitialized = true := by
  obtain ⟨pending, quorum, -, -, -, rfl⟩ := receive_eq_ok h
  rfl

theorem Processed.isInitialized {before after : Coordinator} {report : Report}
    {transcript : List Exchange} {result : Except CommitError (Option CommitSummary)}
    (h : before.Processed report transcript result after) (hinit : before.isInitialized = true) :
    after.isInitialized = true := by
  cases h with
  | refused _ => exact hinit
  | awaited hreceive => exact isInitialized_receive hreceive
  | idle hreceive _ => rw [isInitialized_drain, isInitialized_receive hreceive]
  | attempted hreceive _ _ =>
    unfold afterAttempt
    split
    · rw [isInitialized_drain, isInitialized_receive hreceive]
    · exact isInitialized_receive hreceive

end Coordinator

namespace Step

/-- The partitions of the step's report if it passed the quorum check, in the order of names. -/
def names (step : Step) : List String :=
  match step.event with
  | .record report =>
    match step.before.quorumFor report with
    | .ok _ => report.partitions.elements
    | .error _ => []
  | _ => []

theorem ascending_names (step : Step) : step.names.Pairwise (· < ·) := by
  unfold names
  split
  · rename_i report _
    split
    · exact report.partitions.ascending
    · exact .nil
  · exact .nil

theorem names_of_receive {step : Step} {report : Report} {received : Coordinator}
    {completed : Bool} (hevent : step.event = .record report)
    (hreceive : step.before.receive report = .ok (received, completed)) :
    step.names = report.partitions.elements := by
  obtain ⟨pending, quorum, -, hquorum, -, -⟩ := Coordinator.receive_eq_ok hreceive
  simp only [names, hevent, hquorum]

theorem names_of_refusal {step : Step} {report : Report} {cause : CommitError}
    (hevent : step.event = .record report) (hinit : step.before.isInitialized = true)
    (hreceive : step.before.receive report = .error cause) : step.names = [] := by
  obtain ⟨pending, hpending⟩ := Option.isSome_iff_exists.1 hinit
  simp only [names, hevent]
  split
  · rename_i quorum hquorum
    simp only [Coordinator.receive, hpending, hquorum] at hreceive
    cases hreceive
  · rfl

theorem Valid.isInitialized {step : Step} (h : step.Valid)
    (hinit : step.before.isInitialized = true) : step.after.isInitialized = true := by
  cases hevent : step.event with
  | record report => exact (h.processed hevent).isInitialized hinit
  | watermark timestamp =>
    rw [(h.observed hevent).2.2]
    exact hinit
  | checkpoint checkpoint =>
    obtain ⟨_, -, -, hafter⟩ := h.stored hevent
    rw [hafter]
    exact hinit

/-- A report is only taken into account once, at the end of what is pending. -/
theorem Valid.pendingList_of_record {step : Step} {report : Report} (h : step.Valid)
    (hevent : step.event = .record report) (hinit : step.before.isInitialized = true) :
    step.after.pendingList =
      if step.isAccepted then [] else (step.before.pendingList ++ step.names).eraseDups := by
  have hprocessed := h.processed hevent
  unfold isAccepted
  generalize step.transcript = transcript, step.result = result, hafter : step.after = after
    at hprocessed
  cases hprocessed with
  | refused hreceive =>
    rename_i cause
    have hsilent :
        (Coordinator.refusal step.before.label cause).any Exchange.isAccepted = false := by
      cases cause <;> rfl
    rw [hsilent, names_of_refusal hevent hinit hreceive, List.append_nil]
    exact (eraseDups_eq_self step.before.nodup_pendingList).symm
  | awaited hreceive =>
    rw [names_of_receive hevent hreceive]
    exact Coordinator.pendingList_receive hreceive
  | idle hreceive hpending =>
    rename_i received
    rw [Coordinator.pendingList_drain, names_of_receive hevent hreceive,
      ← Coordinator.pendingList_receive hreceive, hpending]
    rfl
  | attempted hreceive hpending hcourse =>
    rename_i received exchanges attempt
    have haccepted : (emitted (.quorumReached received.label) ::
        (exchanges ++ (attempt.events received.label).map emitted)).any Exchange.isAccepted =
          attempt.isAppended := by
      rw [List.any_cons, List.any_append, hcourse.any_isAccepted,
        any_map_emitted (fun _ ↦ rfl), Bool.or_false]
      rfl
    rw [haccepted, names_of_receive hevent hreceive, ← Coordinator.pendingList_receive hreceive]
    unfold Coordinator.afterAttempt
    split
    · exact Coordinator.pendingList_drain received
    · rfl

/-- A step that neither brings partitions in nor has any accepted by the catalog. -/
theorem pendingList_of_quiet {step : Step}
    (hafter : step.after.pendingList = step.before.pendingList) (hnames : step.names = [])
    (haccepted : step.isAccepted = false) :
    step.after.pendingList =
      if step.isAccepted then [] else (step.before.pendingList ++ step.names).eraseDups := by
  rw [hafter, hnames, haccepted, List.append_nil]
  exact (eraseDups_eq_self step.before.nodup_pendingList).symm

theorem Valid.pendingList_after {step : Step} (h : step.Valid)
    (hinit : step.before.isInitialized = true) :
    step.after.pendingList =
      if step.isAccepted then [] else (step.before.pendingList ++ step.names).eraseDups := by
  cases hevent : step.event with
  | record report => exact h.pendingList_of_record hevent hinit
  | watermark timestamp =>
    obtain ⟨htranscript, -, hafter⟩ := h.observed hevent
    have hnames : step.names = [] := by simp only [names, hevent]
    have haccepted : step.isAccepted = false := by
      rw [isAccepted, htranscript]
      rfl
    exact pendingList_of_quiet (by rw [hafter]; rfl) hnames haccepted
  | checkpoint checkpoint =>
    obtain ⟨result, hstored, -, hafter⟩ := h.stored hevent
    have hnames : step.names = [] := by simp only [names, hevent]
    have haccepted : step.isAccepted = false := by
      unfold isAccepted
      generalize step.transcript = transcript at hstored
      cases hstored <;> rfl
    exact pendingList_of_quiet (by rw [hafter]) hnames haccepted

/-- Nothing but an accepted request keeps the partitions of an attempt from being pending. -/
theorem Valid.settled {step : Step} {report : Report} {received : Coordinator} (h : step.Valid)
    (hevent : step.event = .record report)
    (hreceive : step.before.receive report = .ok (received, true)) :
    (step.isObstructed = true → step.after = received) ∧
      (step.isAccepted = true → step.after.pendingList = []) := by
  obtain ⟨-, htranscript, -, hafter⟩ | ⟨-, exchanges, attempt, hcourse, htranscript, -, hafter⟩ :=
    (h.processed hevent).of_completed hreceive
  · refine ⟨fun hobstacle ↦ ?_, fun haccepted ↦ ?_⟩
    · rw [isObstructed, htranscript] at hobstacle
      cases hobstacle
    · rw [isAccepted, htranscript] at haccepted
      cases haccepted
  · have hany (test : Exchange → Bool) (hemitted : ∀ event, test (emitted event) = false) :
        step.transcript.any test = exchanges.any test := by
      rw [htranscript, List.any_cons, List.any_append, hemitted, any_map_emitted hemitted,
        Bool.false_or, Bool.or_false]
    rw [isObstructed, isAccepted, hany _ fun _ ↦ rfl, hany _ fun _ ↦ rfl, hcourse.any_isAccepted,
      hcourse.any_isObstacle, hafter]
    unfold Coordinator.afterAttempt
    constructor
    · intro hobstacle
      rw [if_neg (by simpa using hobstacle)]
    · intro haccepted
      rw [if_pos haccepted, Coordinator.pendingList_drain]

end Step

/-- What is left to commit after steps: all that came in since a request was last accepted. -/
def outstanding (restored : List String) (steps : List Step) : List String :=
  steps.foldl (fun names step ↦ if step.isAccepted then [] else names ++ step.names) restored

theorem outstanding_of_none {restored : List String} {steps : List Step}
    (h : ∀ step ∈ steps, step.isAccepted = false) :
    outstanding restored steps = restored ++ steps.flatMap Step.names := by
  induction steps generalizing restored with
  | nil => exact (List.append_nil restored).symm
  | cons step rest ih =>
    have hstep : step.isAccepted = false := h step List.mem_cons_self
    calc
      outstanding restored (step :: rest)
          = outstanding (restored ++ step.names) rest := by simp [outstanding, hstep]
      _ = restored ++ step.names ++ rest.flatMap Step.names :=
        ih fun later hmem ↦ h later (List.mem_cons_of_mem step hmem)
      _ = restored ++ (step :: rest).flatMap Step.names := by
        rw [List.flatMap_cons, List.append_assoc]

theorem outstanding_append_cons {restored : List String} {earlier later : List Step} {last : Step}
    (h : last.isAccepted = true) :
    outstanding restored (earlier ++ last :: later) = outstanding [] later := by
  simp [outstanding, h]

theorem Run.isInitialized {start current : Coordinator} {steps : List Step}
    (h : Run start steps current) (hstart : start.isInitialized = true) :
    current.isInitialized = true := by
  induction h with
  | nil => exact hstart
  | snoc _ hstep ih => exact hstep.isInitialized ih

theorem Run.pendingList_eq {start current : Coordinator} {steps : List Step}
    (h : Run start steps current) (hstart : start.isInitialized = true) :
    current.pendingList = (outstanding start.pendingList steps).eraseDups := by
  induction h with
  | nil => exact (eraseDups_eq_self start.nodup_pendingList).symm
  | @snoc steps step hrun hstep ih =>
    have hfold : outstanding start.pendingList (steps ++ [step]) =
        if step.isAccepted then [] else outstanding start.pendingList steps ++ step.names := by
      simp [outstanding]
    have hafter := hstep.pendingList_after (hrun.isInitialized hstart)
    rw [hafter, hfold]
    split
    · rfl
    · calc
        (step.before.pendingList ++ step.names).eraseDups
            = ((outstanding start.pendingList steps).eraseDups ++ step.names).eraseDups := by
          rw [ih]
        _ = (outstanding start.pendingList steps ++ step.names).eraseDups :=
          eraseDups_eraseDups_append _ _

/-- The partitions that a coordinator takes up from what the store answered. -/
def restoredNames (loading : List Exchange) : List String :=
  loading.flatMap fun
    | ⟨.load, .ok stored⟩ => Pending.storedNames stored
    | _ => []

theorem Coordinator.Launched.pendingList {before start : Coordinator} {restored : Bool}
    {loading : List Exchange} (h : before.Launched restored loading (.ok ()) start) :
    start.isInitialized = true ∧ start.pendingList = (restoredNames loading).eraseDups := by
  cases h with
  | started stored hstored =>
    refine ⟨rfl, ?_⟩
    rw [pendingList_start, Pending.toList_restore]
    cases restored with
    | true => simp [restoredNames, emitted]
    | false =>
      rw [hstored rfl]
      rfl

/-- No partition is lost or repeated by a coordinator, whatever the catalog, the listing and the
store answer. -/
theorem pendingList_conserved {label : String} {options : SinkOptions} {restored : Bool}
    {loading : List Exchange} {start current : Coordinator} {steps : List Step}
    (hlaunch : Yields ((Coordinator.new label options).launch store restored) loading
      (.ok (), start))
    (hrun : Run start steps current) :
    ((∀ step ∈ steps, step.isAccepted = false) →
      current.pendingList = (restoredNames loading ++ steps.flatMap Step.names).eraseDups) ∧
    (∀ earlier last later, steps = earlier ++ last :: later → last.isAccepted = true →
      (∀ step ∈ later, step.isAccepted = false) →
        current.pendingList = (later.flatMap Step.names).eraseDups) ∧
    (∀ step ∈ steps, step.names.Pairwise (· < ·)) ∧
    (∀ step ∈ steps, ∀ report received, step.event = .record report →
      step.before.receive report = .ok (received, true) →
        (step.isObstructed = true → step.after = received) ∧
          (step.isAccepted = true → step.after.pendingList = [])) := by
  obtain ⟨hinit, hstart⟩ := (Coordinator.launched_of_yields hlaunch).pendingList
  have hpending := hrun.pendingList_eq hinit
  refine ⟨fun hnone ↦ ?_, fun earlier last later hsteps hlast hnone ↦ ?_,
    fun step _ ↦ step.ascending_names, fun step hmem report received hevent hreceive ↦ ?_⟩
  · rw [hpending, outstanding_of_none hnone, hstart, eraseDups_eraseDups_append]
  · rw [hpending, hsteps, outstanding_append_cons hlast, outstanding_of_none hnone]
    rfl
  · exact (hrun.valid step hmem).settled hevent hreceive

/-- A restored coordinator whose only writer reports while the catalog knows no table. -/
def strandedStep : Step :=
  .of (Call.unknown [] .last)
    ((Coordinator.new "orders" (.ofLocation "/orders")).start (.restore [⟨1, 4, 0, ["b"]⟩]))
    (.record ⟨5, 0, 1, "orders", "", .ofList ["c", "a", "b"]⟩)

theorem pendingList_conserved_stranded :
    strandedStep.after.pendingList = ["b", "a", "c"] := by
  have hlaunch : Yields ((Coordinator.new "orders" (.ofLocation "/orders")).launch store true)
      [⟨.load, .ok [⟨1, 4, 0, ["b"]⟩]⟩, emitted (.pendingPartitions "orders" 1)]
      (.ok (), strandedStep.before) :=
    yields_replay (Call.unknown [⟨1, 4, 0, ["b"]⟩] .last) _
  have hrun : Run strandedStep.before [strandedStep] strandedStep.after :=
    .snoc .nil (Step.valid_of _ _ _)
  have hnone : ∀ step ∈ [strandedStep], step.isAccepted = false := by decide +kernel
  rw [(pendingList_conserved hlaunch hrun).1 hnone]
  decide +kernel

end CommitCoordinator
