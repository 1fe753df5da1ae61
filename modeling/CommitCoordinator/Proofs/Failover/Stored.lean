import CommitCoordinator.Proofs.Collection.Concatenation
import CommitCoordinator.Proofs.Failover.Coverage

/-!
# What the store holds when a coordinator comes back

Only a checkpoint writes to the store, and it writes what is pending at that moment: partitions
that were observed after the last accepted request. A request that is accepted later leaves the
store as it is, so a coordinator that comes back may append once more what was committed after the
snapshot in the store, but nothing that was committed before it.
-/

namespace CommitCoordinator

open Dialogue

/-- Whether each request accepted in steps is followed by a step that brings a partition in. -/
def ObservedSince (steps : List Step) (partition : String) : Prop :=
  ∀ front accepted back, steps = front ++ accepted :: back → accepted.isAccepted = true →
    ∃ observed ∈ back, partition ∈ observed.names

/-- What is left to commit was brought in by one of the steps or was there before them. -/
theorem mem_outstanding {restored : List String} {steps : List Step} {partition : String}
    (h : partition ∈ outstanding restored steps) :
    (∃ observed ∈ steps, partition ∈ observed.names) ∨
      partition ∈ restored ∧ ∀ step ∈ steps, step.isAccepted = false := by
  induction steps generalizing restored with
  | nil => exact .inr ⟨h, fun step hstep ↦ absurd hstep List.not_mem_nil⟩
  | cons step rest ih =>
    rw [outstanding, List.foldl_cons, ← outstanding] at h
    rcases ih h with ⟨observed, hobserved, hnames⟩ | ⟨hmem, hrest⟩
    · exact .inl ⟨observed, List.mem_cons_of_mem _ hobserved, hnames⟩
    · split at hmem
      · cases hmem
      · rename_i hstep
        rcases List.mem_append.1 hmem with hrestored | hnames
        · refine .inr ⟨hrestored, fun other hother ↦ ?_⟩
          rcases List.mem_cons.1 hother with rfl | hother
          · exact Bool.eq_false_iff.2 hstep
          · exact hrest other hother
        · exact .inl ⟨step, List.mem_cons_self, hnames⟩

theorem Run.observedSince {start current : Coordinator} {steps : List Step}
    (h : Run start steps current) (hstart : start.isInitialized = true) {partition : String}
    (hpending : partition ∈ current.pendingList) : ObservedSince steps partition := by
  intro front accepted back hsteps haccepted
  rw [h.pendingList_eq hstart, List.mem_eraseDups, hsteps,
    outstanding_append_cons haccepted] at hpending
  rcases mem_outstanding hpending with hobserved | ⟨himpossible, -⟩
  · exact hobserved
  · cases himpossible

/-! ## What a request names -/

theorem Attempt.Course.mem_of_accepted {options : SinkOptions} {report : Report}
    {partitions : List String} {transcript : List Exchange} {attempt : Attempt}
    (h : Attempt.Course options report partitions transcript attempt) {exchange : Exchange}
    (hmem : exchange ∈ transcript) {part : PartitionAppend} (hpart : part ∈ exchange.accepted) :
    part.partition ∈ partitions := by
  have hfindings (findings : List Finding)
      (hmem : exchange ∈ findings.flatMap (·.exchanges options)) : False := by
    obtain ⟨finding, -, hmem⟩ := List.mem_flatMap.1 hmem
    rcases List.mem_cons.1 hmem with rfl | hmem
    · cases hpart
    · rw [List.mem_singleton.1 hmem] at hpart
      cases hpart
  cases h with
  | lookupFailed cause =>
    rw [List.mem_singleton.1 hmem] at hpart
    cases hpart
  | listingFailed table findings partition rest cause _ =>
    rcases List.mem_cons.1 hmem with rfl | hmem
    · cases hpart
    · rcases List.mem_append.1 hmem with hmem | hmem
      · exact (hfindings findings hmem).elim
      · rw [List.mem_singleton.1 hmem] at hpart
        cases hpart
  | sent table findings time hpartitions hphases =>
    rw [hpartitions, ← partitions_payloadOf options report.fileMark table findings time]
    have hasked : part ∈
        (payloadOf options report.fileMark table findings time).request.partitions := by
      rcases List.mem_cons.1 hmem with rfl | hmem
      · cases hpart
      · rcases List.mem_append.1 hmem with hmem | hmem
        · exact (hfindings findings hmem).elim
        · rcases List.mem_cons.1 hmem with rfl | hmem
          · cases hpart
          · cases hphases <;> simp only [List.mem_cons, List.not_mem_nil, or_false] at hmem
            · cases hmem
              cases hpart
            · cases hmem
              cases hpart
            · rcases hmem with rfl | rfl
              · exact hpart
              · cases hpart
            · rcases hmem with rfl | rfl
              · exact hpart
              · cases hpart
    exact List.mem_map_of_mem hasked

/-- Whether a partition is in a request that is accepted in the step. -/
def Step.appends (step : Step) (partition : String) : Bool :=
  step.transcript.any fun exchange ↦ exchange.accepted.any fun part ↦ part.partition = partition

/-- A request that is accepted names partitions that were pending or that the step brings in. -/
theorem Step.Valid.mem_of_appends {step : Step} (h : step.Valid) {partition : String}
    (happends : step.appends partition = true) :
    partition ∈ step.before.pendingList ∨ partition ∈ step.names := by
  obtain ⟨exchange, hmem, hpart⟩ := List.any_eq_true.1 happends
  obtain ⟨part, hpart, hpartition⟩ := List.any_eq_true.1 hpart
  rw [← of_decide_eq_true hpartition]
  cases hevent : step.event with
  | watermark timestamp =>
    rw [(h.observed hevent).1] at hmem
    cases hmem
  | checkpoint checkpoint =>
    obtain ⟨result, hstored, -, -⟩ := h.stored hevent
    generalize step.transcript = transcript at hstored hmem
    cases hstored with
    | uninitialized _ => cases hmem
    | failed cause _ =>
      rw [List.mem_singleton.1 hmem] at hpart
      cases hpart
    | stored _ =>
      rcases List.mem_cons.1 hmem with rfl | hmem
      · cases hpart
      · rw [List.mem_singleton.1 hmem] at hpart
        cases hpart
  | record report =>
    have hprocessed := h.processed hevent
    generalize htranscript : step.transcript = transcript, step.result = result,
      step.after = after at hprocessed hmem
    cases hprocessed with
    | @refused cause _ =>
      cases cause with
      | quorum violation =>
        rw [List.mem_singleton.1 hmem] at hpart
        cases hpart
      | _ => cases hmem
    | awaited _ => cases hmem
    | idle _ _ =>
      rw [List.mem_singleton.1 hmem] at hpart
      cases hpart
    | attempted hreceive _ hcourse =>
      have hcourse : exchange ∈ _ → part.partition ∈ _ := fun hmem ↦
        hcourse.mem_of_accepted hmem hpart
      rcases List.mem_cons.1 hmem with rfl | hmem
      · cases hpart
      · rcases List.mem_append.1 hmem with hmem | hmem
        · have hreceived := hcourse hmem
          rw [Coordinator.pendingList_receive hreceive, List.mem_eraseDups, List.mem_append,
            ← names_of_receive hevent hreceive] at hreceived
          exact hreceived
        · obtain ⟨event, -, rfl⟩ := List.mem_map.1 hmem
          cases hpart

/-! ## The snapshot in the store -/

/-- A store holds what it held before or the snapshots of the last write that took effect. -/
theorem Persists.last {before after : List Snapshot} {seen : List Exchange}
    (h : Persists before seen after) :
    (after = before ∧ ∀ snapshots, (⟨.store snapshots, .ok ()⟩ : Exchange) ∉ seen) ∨
      ∃ front written back, seen = front ++ (⟨.store after, written⟩ : Exchange) :: back ∧
        ∀ snapshots, (⟨.store snapshots, .ok ()⟩ : Exchange) ∉ back := by
  have hcons {exchange : Exchange} {rest : List Exchange} {stored : List Snapshot}
      (hlater : ∃ front written back,
        rest = front ++ (⟨.store stored, written⟩ : Exchange) :: back ∧
          ∀ snapshots, (⟨.store snapshots, .ok ()⟩ : Exchange) ∉ back) :
      ∃ front written back,
        exchange :: rest = front ++ (⟨.store stored, written⟩ : Exchange) :: back ∧
          ∀ snapshots, (⟨.store snapshots, .ok ()⟩ : Exchange) ∉ back := by
    obtain ⟨front, written, back, rfl, hback⟩ := hlater
    exact ⟨exchange :: front, written, back, rfl, hback⟩
  induction h with
  | nil stored => exact .inl ⟨rfl, nofun⟩
  | stored _ ih =>
    rcases ih with ⟨rfl, hnone⟩ | hlater
    · exact .inr ⟨[], .ok (), _, rfl, hnone⟩
    · exact .inr (hcons hlater)
  | lost cause _ ih =>
    rcases ih with ⟨rfl, hnone⟩ | hlater
    · refine .inl ⟨rfl, fun snapshots hmem ↦ ?_⟩
      rcases List.mem_cons.1 hmem with hfirst | hmem
      · cases hfirst
      · exact hnone snapshots hmem
    · exact .inr (hcons hlater)
  | kept cause _ ih =>
    rcases ih with ⟨rfl, hnone⟩ | hlater
    · exact .inr ⟨[], .error cause, _, rfl, hnone⟩
    · exact .inr (hcons hlater)
  | elsewhere hstore _ ih =>
    rcases ih with ⟨rfl, hnone⟩ | hlater
    · refine .inl ⟨rfl, fun snapshots hmem ↦ ?_⟩
      rcases List.mem_cons.1 hmem with rfl | hmem
      · cases hstore
      · exact hnone snapshots hmem
    · exact .inr (hcons hlater)

theorem Coordinator.Launched.restoredNames_eq {before after : Coordinator}
    {loading : List Exchange} {result : Except CommitError Unit} {stored : List Snapshot}
    (h : before.Launched true loading result after)
    (hload : (⟨.load, .ok stored⟩ : Exchange) ∈ loading) :
    restoredNames loading = Pending.storedNames stored := by
  cases h with
  | twice _ => cases hload
  | failed cause _ => cases List.mem_singleton.1 hload
  | started loaded _ =>
    rcases List.mem_append.1 hload with hload | hload
    · cases List.mem_singleton.1 hload
      exact List.append_nil _
    · cases List.mem_singleton.1 hload

theorem Coordinator.Launched.not_store {before after : Coordinator} {restored : Bool}
    {loading : List Exchange} {result : Except CommitError Unit}
    (h : before.Launched restored loading result after) {exchange : Exchange}
    (hmem : exchange ∈ loading) : exchange.isStore = false := by
  cases h with
  | twice _ => cases hmem
  | failed cause _ =>
    rw [List.mem_singleton.1 hmem]
    rfl
  | started loaded _ =>
    rcases List.mem_append.1 hmem with hmem | hmem
    · cases restored with
      | false => cases hmem
      | true =>
        rw [List.mem_singleton.1 hmem]
        rfl
    · rw [List.mem_singleton.1 hmem]
      rfl

theorem Run.checkpoint_of_isStore {start current : Coordinator} {steps : List Step}
    (h : Run start steps current) {step : Step} (hstep : step ∈ steps) {exchange : Exchange}
    (hmem : exchange ∈ step.transcript) (hstore : exchange.isStore = true) :
    ∃ checkpoint, step.event = .checkpoint checkpoint := by
  obtain ⟨front, back, rfl⟩ := List.append_of_mem hstep
  obtain ⟨-, hvalid, -⟩ := h.split_at
  obtain ⟨call, response⟩ := exchange
  cases call with
  | store snapshots => exact (hvalid.names_of_store hmem).1
  | _ => cases hstore

/-- What a coordinator that comes back appends has been observed since, or it was in the snapshot
that was loaded and no request has been accepted since. -/
theorem Run.observed_or_stored_of_appends {before next last : Coordinator}
    {reloading : List Exchange} {stored : List Snapshot} {front back : List Step} {step : Step}
    {partition : String} (h : Run next (front ++ step :: back) last)
    (hlaunched : before.Launched true reloading (.ok ()) next)
    (hload : (⟨.load, .ok stored⟩ : Exchange) ∈ reloading) (happends : step.appends partition = true) :
    (∃ observed ∈ front ++ [step], partition ∈ observed.names) ∨
      partition ∈ Pending.storedNames stored ∧ ∀ other ∈ front, other.isAccepted = false := by
  obtain ⟨hinit, hlist⟩ := hlaunched.pendingList
  obtain ⟨hfront, hstep, -⟩ := h.split_at
  rcases hstep.mem_of_appends happends with hpending | hnames
  · rw [hfront.pendingList_eq hinit, List.mem_eraseDups, hlist] at hpending
    rcases mem_outstanding hpending with ⟨observed, hobserved, hnames⟩ | ⟨hrestored, hnone⟩
    · exact .inl ⟨observed, List.mem_append_left _ hobserved, hnames⟩
    · rw [List.mem_eraseDups, hlaunched.restoredNames_eq hload] at hrestored
      exact .inr ⟨hrestored, hnone⟩
  · exact .inl ⟨step, List.mem_append_right _ List.mem_cons_self, hnames⟩

/-- The snapshot in the store was written at a checkpoint and holds what was pending then:
partitions that had not been committed since they were last observed. Nothing but a checkpoint
writes to the store. What a coordinator that comes back appends was in that snapshot or has been
observed again. -/
theorem uncommitted_when_stored {label : String} {options : SinkOptions} {restored : Bool}
    {loading : List Exchange} {start current : Coordinator} {steps : List Step}
    (hlaunch : Yields ((Coordinator.new label options).launch store restored) loading
      (.ok (), start))
    (hrun : Run start steps current) {seen unseen : List Exchange}
    (hseen : steps.flatMap Step.transcript = seen ++ unseen) {before stored : List Snapshot}
    (hstored : Persists before seen stored) :
    ((stored = before ∧ ∀ snapshots, (⟨.store snapshots, .ok ()⟩ : Exchange) ∉ seen) ∨
      ∃ earlier step later opening written closing back checkpoint,
        steps = earlier ++ step :: later ∧ step.event = .checkpoint checkpoint ∧
        step.transcript = opening ++ (⟨.store stored, written⟩ : Exchange) :: closing ∧
        seen = earlier.flatMap Step.transcript ++
          opening ++ (⟨.store stored, written⟩ : Exchange) :: back ∧
        (∀ snapshots, (⟨.store snapshots, .ok ()⟩ : Exchange) ∉ back) ∧
        Pending.storedNames stored = step.before.pendingList ∧
        ∀ partition ∈ Pending.storedNames stored, ObservedSince earlier partition) ∧
    (∀ exchange ∈ loading, exchange.isStore = false) ∧
    (∀ step ∈ steps, (∃ exchange ∈ step.transcript, exchange.isStore = true) →
      ∃ checkpoint, step.event = .checkpoint checkpoint) ∧
    ∀ reloading next last further,
      Yields ((Coordinator.new label options).launch store true) reloading (.ok (), next) →
      (⟨.load, .ok stored⟩ : Exchange) ∈ reloading → Run next further last →
      ∀ front step back partition, further = front ++ step :: back →
        step.appends partition = true →
          (∃ observed ∈ front ++ [step], partition ∈ observed.names) ∨
            partition ∈ Pending.storedNames stored ∧
              ∀ other ∈ front, other.isAccepted = false := by
  have hlaunched := Coordinator.launched_of_yields hlaunch
  refine ⟨?_, fun exchange ↦ hlaunched.not_store,
    fun step hstep ⟨exchange, hmem, hstore⟩ ↦ hrun.checkpoint_of_isStore hstep hmem hstore, ?_⟩
  · rcases hstored.last with hkept | ⟨front, written, back, hfront, hback⟩
    · exact .inl hkept
    · rw [hfront, List.append_assoc, List.cons_append] at hseen
      obtain ⟨earlier, step, later, opening, closing, hsteps, htranscript, rfl, -⟩ :=
        flatMap_eq_append_cons hseen
      rw [hsteps] at hrun
      obtain ⟨hearlier, hstep, -⟩ := hrun.split_at
      have hmem : (⟨.store stored, written⟩ : Exchange) ∈ step.transcript := by
        rw [htranscript]
        exact List.mem_append_right _ List.mem_cons_self
      obtain ⟨⟨checkpoint, hevent⟩, hnames⟩ := hstep.names_of_store hmem
      refine .inr ⟨earlier, step, later, opening, written, closing, back, checkpoint, hsteps,
        hevent, htranscript, hfront, hback, hnames, fun partition hpartition ↦ ?_⟩
      rw [hnames] at hpartition
      exact hearlier.observedSince hlaunched.pendingList.1 hpartition
  · intro reloading next last further hrelaunch hload hfurther front step back partition hsteps
      happends
    rw [hsteps] at hfurther
    exact hfurther.observed_or_stored_of_appends (Coordinator.launched_of_yields hrelaunch) hload
      happends

/-! ## A commit after the snapshot -/

/-- A step in which nothing fails; a number stands for the snapshots that are drawn. -/
def smoothStep (snapshot : Nat) (before : Coordinator) (event : HostEvent) : Step :=
  .of (Call.granted ⟨"t1", "orders", "/orders", ""⟩ [] (.ofNumber snapshot)) before event

/-- One of two writers reports partitions for a checkpoint. -/
def reportOf (checkpoint : Int64) (task : UInt32) (partitions : List String) : HostEvent :=
  .record ⟨checkpoint, task, 2, "orders", "", .ofList partitions⟩

def partialReport : Step :=
  smoothStep 0 ((Coordinator.new "orders" (.ofLocation "/orders")).start .empty)
    (reportOf 5 0 ["a"])

def storingStep : Step := smoothStep 0 partialReport.after (.checkpoint 1)

def finalReport : Step := smoothStep 0 storingStep.after (reportOf 5 1 [])

/-- What the store holds since the checkpoint. -/
def storedBetween : List Snapshot :=
  [⟨1, 1, noWatermark, ["a"]⟩]

def returnedReport : Step :=
  smoothStep 1 ((Coordinator.new "orders" (.ofLocation "/orders")).start (.restore storedBetween))
    (reportOf 6 0 [])

def repeatingReport : Step := smoothStep 1 returnedReport.after (reportOf 6 1 [])

theorem run_between :
    Run partialReport.before [partialReport, storingStep, finalReport] finalReport.after :=
  ((Run.nil.snoc (Step.valid_of _ _ _)).snoc (Step.valid_of _ _ _)).snoc (Step.valid_of _ _ _)

theorem Persists.of_none {seen : List Exchange} (h : ∀ exchange ∈ seen, exchange.isStore = false)
    (stored : List Snapshot) : Persists stored seen stored := by
  induction seen with
  | nil => exact .nil stored
  | cons exchange rest ih =>
    exact .elsewhere (h exchange List.mem_cons_self)
      (ih fun other hother ↦ h other (List.mem_cons_of_mem _ hother))

theorem persists_between :
    Persists [] ([partialReport, storingStep, finalReport].flatMap Step.transcript)
      storedBetween :=
  .stored (Persists.of_none (by decide +kernel) _)

theorem uncommitted_when_stored_between :
    (∃ earlier step later checkpoint,
      [partialReport, storingStep, finalReport] = earlier ++ step :: later ∧
        step.event = .checkpoint checkpoint ∧
        Pending.storedNames storedBetween = step.before.pendingList ∧
        ObservedSince earlier "a") ∧
    ∀ other ∈ [returnedReport], other.isAccepted = false := by
  have hlaunch := yields_replay (Call.granted ⟨"t1", "orders", "/orders", ""⟩ [] (.ofNumber 0))
    ((Coordinator.new "orders" (.ofLocation "/orders")).launch store false)
  have hrelaunch := yields_replay
    (Call.granted ⟨"t1", "orders", "/orders", ""⟩ storedBetween (.ofNumber 0))
    ((Coordinator.new "orders" (.ofLocation "/orders")).launch store true)
  have hreturned : Run returnedReport.before [returnedReport, repeatingReport] _ :=
    (Run.nil.snoc (Step.valid_of _ _ _)).snoc (Step.valid_of _ _ _)
  obtain ⟨hsnapshot, -, -, hagain⟩ :=
    uncommitted_when_stored hlaunch run_between (List.append_nil _).symm persists_between
  constructor
  · rcases hsnapshot with ⟨hkept, -⟩ | ⟨earlier, step, later, -, -, -, -, checkpoint, hsteps,
      hevent, -, -, -, hnames, hsince⟩
    · cases hkept
    · exact ⟨earlier, step, later, checkpoint, hsteps, hevent, hnames, hsince "a" (by decide)⟩
  · rcases hagain _ _ _ _ hrelaunch List.mem_cons_self hreturned [returnedReport] repeatingReport []
      "a" rfl (by decide +kernel) with hobserved | ⟨-, hnone⟩
    · exact absurd hobserved (by decide +kernel)
    · exact hnone

/-- A partition that is committed after the snapshot stays in the store, and a coordinator that
comes back appends it once more without having observed it again. -/
theorem appended_again_after_return :
    ∃ loading reloading last,
      Yields ((Coordinator.new "orders" (.ofLocation "/orders")).launch store false) loading
        (.ok (), partialReport.before) ∧
      Run partialReport.before [partialReport, storingStep, finalReport] finalReport.after ∧
      Persists [] ([partialReport, storingStep, finalReport].flatMap Step.transcript)
        storedBetween ∧
      "a" ∈ Pending.storedNames storedBetween ∧
      finalReport.appends "a" = true ∧ "a" ∉ finalReport.names ∧
      Yields ((Coordinator.new "orders" (.ofLocation "/orders")).launch store true) reloading
        (.ok (), returnedReport.before) ∧
      (⟨.load, .ok storedBetween⟩ : Exchange) ∈ reloading ∧
      Run returnedReport.before [returnedReport, repeatingReport] last ∧
      repeatingReport.appends "a" = true ∧
      ∀ step ∈ [returnedReport, repeatingReport], "a" ∉ step.names := by
  have hlaunch := yields_replay (Call.granted ⟨"t1", "orders", "/orders", ""⟩ [] (.ofNumber 0))
    ((Coordinator.new "orders" (.ofLocation "/orders")).launch store false)
  have hrelaunch := yields_replay
    (Call.granted ⟨"t1", "orders", "/orders", ""⟩ storedBetween (.ofNumber 0))
    ((Coordinator.new "orders" (.ofLocation "/orders")).launch store true)
  have hreturned : Run returnedReport.before [returnedReport, repeatingReport] _ :=
    (Run.nil.snoc (Step.valid_of _ _ _)).snoc (Step.valid_of _ _ _)
  exact ⟨_, _, _, hlaunch, run_between, persists_between, by decide, by decide +kernel,
    by decide +kernel, hrelaunch, List.mem_cons_self, hreturned, by decide +kernel,
    by decide +kernel⟩

end CommitCoordinator
