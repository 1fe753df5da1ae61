import CommitCoordinator.Proofs.Failover.Coverage
import CommitCoordinator.Proofs.Quorum.Arrivals

/-!
# Rounds of reports

The report that completes a checkpoint ends a round: the checkpoint is forgotten, and reports for
it that come later begin another round. A commit takes a whole round, in which every writer has
been heard, so a checkpoint is committed once unless all of its reports are accepted again.
-/

namespace CommitCoordinator

open Dialogue

namespace Step

/-- Whether the step's report is accepted and comes from a task for a checkpoint. -/
def hears (step : Step) (checkpoint : Int64) (task : UInt32) : Bool :=
  step.accepted?.any fun report ↦ report.checkpoint = checkpoint && report.task = task

/-- Whether the step's report is for a checkpoint and has a summary. -/
def commits (step : Step) (checkpoint : Int64) : Bool :=
  match step.event, step.result with
  | .record report, .ok (some _) => report.checkpoint = checkpoint
  | _, _ => false

variable {step : Step} {checkpoint : Int64}

theorem hears_eq_true {task : UInt32} : step.hears checkpoint task = true ↔
    ∃ report, step.accepted? = some report ∧ report.checkpoint = checkpoint ∧
      report.task = task := by
  simp [hears, Option.any_eq_true]

/-- Only a report that completes its checkpoint has a summary. -/
theorem Valid.receive_of_commits (h : step.Valid) (hcommits : step.commits checkpoint = true) :
    ∃ report received, step.event = .record report ∧ report.checkpoint = checkpoint ∧
      step.before.receive report = .ok (received, true) := by
  unfold commits at hcommits
  split at hcommits
  · rename_i report summary hevent hresult
    refine ⟨report, ?_⟩
    cases hreceive : step.before.receive report with
    | error cause =>
      obtain ⟨-, hrefused, -⟩ := (h.processed hevent).of_refused hreceive
      rw [hresult] at hrefused
      cases hrefused
    | ok outcome =>
      obtain ⟨received, completed⟩ := outcome
      cases completed with
      | false =>
        obtain ⟨-, hawaited, -⟩ := (h.processed hevent).of_awaited hreceive
        rw [hresult] at hawaited
        cases hawaited
      | true => exact ⟨received, hevent, of_decide_eq_true hcommits, rfl⟩
  · cases hcommits

theorem Valid.commits_of_not_accepted (h : step.Valid) (hnone : step.accepted? = none) :
    step.commits checkpoint = false := by
  apply Bool.eq_false_iff.2
  intro hcommits
  obtain ⟨report, received, hevent, -, hreceive⟩ := h.receive_of_commits hcommits
  rw [accepted?_of_receive hevent hreceive] at hnone
  cases hnone

/-- The quorum of an accepted report, before and after the report is counted. -/
theorem Valid.quorum_of_accepted (h : step.Valid) {report : Report}
    (haccepted : step.accepted? = some report) :
    ∃ quorum, step.before.quorumFor report = .ok quorum ∧
      step.after.quorum = some (quorum.add report.checkpoint report.task).1 ∧
      ∀ checkpoint, step.commits checkpoint = true →
        report.checkpoint = checkpoint ∧ (quorum.add report.checkpoint report.task).2 = true := by
  obtain ⟨hevent, received, completed, hreceive⟩ := accepted?_eq_some haccepted
  obtain ⟨pending, quorum, -, hquorum, hcompleted, hreceived⟩ :=
    Coordinator.receive_eq_ok hreceive
  refine ⟨quorum, hquorum, ?_, fun checkpoint hcommits ↦ ?_⟩
  · rw [(h.of_receive hevent hreceive).1, hreceived]
  · obtain ⟨other, received', hevent', hcheckpoint, hreceive'⟩ := h.receive_of_commits hcommits
    obtain rfl := HostEvent.record.inj (hevent.symm.trans hevent')
    rw [hreceive'] at hreceive
    cases hreceive
    exact ⟨hcheckpoint, hcompleted.symm⟩

end Step

/-! ## What is counted was heard -/

/-- Whether a quorum counts only tasks that were heard in steps. -/
def Heard (steps : List Step) (checkpoint : Int64) (quorum : Quorum) : Prop :=
  ∀ task ∈ (quorum.arrived checkpoint).elements,
    task < quorum.total ∧ ∃ step ∈ steps, step.hears checkpoint task = true

/-- The quorum of a report counts what the coordinator has counted. -/
theorem Heard.of_quorumFor {steps : List Step} {checkpoint : Int64} {coordinator : Coordinator}
    {report : Report} {quorum : Quorum}
    (h : ∀ known, coordinator.quorum = some known → Heard steps checkpoint known)
    (hquorum : coordinator.quorumFor report = .ok quorum) : Heard steps checkpoint quorum := by
  obtain ⟨-, hknown | ⟨-, hcreate⟩⟩ := Coordinator.quorumFor_eq_ok.1 hquorum
  · exact h quorum hknown
  · intro task htask
    rw [Quorum.arrived_create hcreate] at htask
    cases htask

theorem Heard.add {steps : List Step} {checkpoint : Int64} {quorum : Quorum}
    (h : Heard steps checkpoint quorum) {step : Step} {report : Report}
    (haccepted : step.accepted? = some report) (hfits : report.Fits quorum.total) :
    Heard (steps ++ [step]) checkpoint (quorum.add report.checkpoint report.task).1 := by
  have hearlier (task : UInt32) (htask : task ∈ (quorum.arrived checkpoint).elements) :
      task < quorum.total ∧ ∃ other ∈ steps ++ [step], other.hears checkpoint task = true := by
    obtain ⟨hbelow, other, hother, hheard⟩ := h task htask
    exact ⟨hbelow, other, List.mem_append_left _ hother, hheard⟩
  intro task htask
  rw [Quorum.total_add]
  by_cases hsame : report.checkpoint = checkpoint
  · subst hsame
    cases hcompleted : (quorum.add report.checkpoint report.task).2 with
    | true =>
      rw [Quorum.arrived_add_of_completed _ _ _ hcompleted] at htask
      cases htask
    | false =>
      rw [Quorum.arrived_add_of_awaited _ _ _ hcompleted] at htask
      rcases SequencedSet.mem_elements_insert.1 htask with htask | rfl
      · exact hearlier task htask
      · have hheard : step.hears report.checkpoint report.task = true :=
          Step.hears_eq_true.2 ⟨report, haccepted, rfl, rfl⟩
        exact ⟨UInt32.not_le.1 hfits.2, step, List.mem_append_right _ List.mem_cons_self, hheard⟩
  · rw [Quorum.arrived_add_of_ne _ _ _ (Ne.symm hsame)] at htask
    exact hearlier task htask

/-- A coordinator that counts no report of a checkpoint at first counts only what a run brings. -/
theorem Run.heard {start current : Coordinator} {steps : List Step} (h : Run start steps current)
    {checkpoint : Int64}
    (hstart : ∀ quorum, start.quorum = some quorum → Heard [] checkpoint quorum) :
    ∀ quorum, current.quorum = some quorum → Heard steps checkpoint quorum := by
  induction h with
  | nil => exact hstart
  | @snoc steps step _ hstep ih =>
    intro quorum hquorum
    cases haccepted : step.accepted? with
    | none =>
      rw [(hstep.of_not_accepted haccepted).1] at hquorum
      intro task htask
      obtain ⟨hbelow, other, hother, hheard⟩ := ih quorum hquorum task htask
      exact ⟨hbelow, other, List.mem_append_left _ hother, hheard⟩
    | some report =>
      obtain ⟨known, hknown, hafter, -⟩ := hstep.quorum_of_accepted haccepted
      rw [hafter] at hquorum
      cases hquorum
      exact (Heard.of_quorumFor ih hknown).add haccepted (Coordinator.quorumFor_eq_ok.1 hknown).1

/-- A commit takes a report of every writer. -/
theorem Run.heard_of_commits {start : Coordinator} {steps : List Step} {step : Step}
    (h : Run start steps step.before) (hstep : step.Valid) {checkpoint : Int64} {writers : UInt32}
    (hstart : ∀ quorum, start.quorum = some quorum → Heard [] checkpoint quorum)
    (hwriters : ∀ report, step.accepted? = some report → report.Fits writers)
    (hcommits : step.commits checkpoint = true) {task : UInt32} (htask : task < writers) :
    ∃ heard ∈ steps ++ [step], heard.hears checkpoint task = true := by
  obtain ⟨report, received, hevent, hcheckpoint, hreceive⟩ := hstep.receive_of_commits hcommits
  have haccepted := Step.accepted?_of_receive hevent hreceive
  obtain ⟨quorum, hquorum, -, hcounted⟩ := hstep.quorum_of_accepted haccepted
  obtain ⟨hfits, -⟩ := Coordinator.quorumFor_eq_ok.1 hquorum
  have hheard := Heard.of_quorumFor (h.heard hstart) hquorum
  subst hcheckpoint
  rw [← (hwriters report haccepted).1, hfits.1] at htask
  rcases quorum.mem_arrived_of_completed report.checkpoint report.task (hcounted _ hcommits).2
    (fun other hother ↦ (hheard other hother).1) (UInt32.not_le.1 hfits.2) htask with harrived | rfl
  · obtain ⟨-, other, hother, hhears⟩ := hheard task harrived
    exact ⟨other, List.mem_append_left _ hother, hhears⟩
  · exact ⟨step, List.mem_append_right _ List.mem_cons_self,
      Step.hears_eq_true.2 ⟨report, haccepted, rfl, rfl⟩⟩

/-- After a commit no report of its checkpoint is counted. -/
theorem Step.Valid.heard_of_commits {step : Step} (h : step.Valid) {checkpoint : Int64}
    (hcommits : step.commits checkpoint = true) :
    ∀ quorum, step.after.quorum = some quorum → Heard [] checkpoint quorum := by
  obtain ⟨report, received, hevent, -, hreceive⟩ := h.receive_of_commits hcommits
  obtain ⟨known, -, hafter, hcounted⟩ :=
    h.quorum_of_accepted (accepted?_of_receive hevent hreceive)
  obtain ⟨rfl, hcompleted⟩ := hcounted _ hcommits
  intro quorum hquorum task htask
  rw [hafter] at hquorum
  cases hquorum
  rw [Quorum.arrived_add_of_completed _ _ _ hcompleted] at htask
  cases htask

/-! ## Counting commits -/

/-- Whether a coordinator has committed a checkpoint at most as often as it heard each task, and
once less if it counts the task at present. -/
def Tallied (steps : List Step) (checkpoint : Int64) (quorum : Quorum) : Prop :=
  ∀ task < quorum.total,
    steps.countP (·.commits checkpoint) +
        (if task ∈ (quorum.arrived checkpoint).elements then 1 else 0) ≤
      steps.countP (·.hears checkpoint task)

theorem Tallied.add {steps : List Step} {checkpoint : Int64} {quorum : Quorum}
    (h : Tallied steps checkpoint quorum) (hheard : Heard steps checkpoint quorum) {step : Step}
    {report : Report} (haccepted : step.accepted? = some report)
    (hfits : report.Fits quorum.total)
    (hcommits : step.commits checkpoint = true → report.checkpoint = checkpoint ∧
      (quorum.add report.checkpoint report.task).2 = true) :
    Tallied (steps ++ [step]) checkpoint (quorum.add report.checkpoint report.task).1 := by
  intro task htask
  rw [Quorum.total_add] at htask
  have hbefore := h task htask
  have hhears : step.hears checkpoint task = true ↔
      report.checkpoint = checkpoint ∧ report.task = task := by
    rw [Step.hears_eq_true, haccepted]
    simp
  rw [List.countP_append, List.countP_append, List.countP_singleton, List.countP_singleton]
  by_cases hsame : report.checkpoint = checkpoint
  · subst hsame
    cases hcompleted : (quorum.add report.checkpoint report.task).2 with
    | true =>
      -- The round ends: the last task was not counted yet, and all others were.
      have hnew := ((quorum.add_snd_eq_true _ _).1 hcompleted).1
      have hall := quorum.mem_arrived_of_completed report.checkpoint report.task hcompleted
        (fun other hother ↦ (hheard other hother).1) (UInt32.not_le.1 hfits.2) htask
      rw [Quorum.arrived_add_of_completed _ _ _ hcompleted]
      have hempty : task ∉ (SequencedSet.empty : SequencedSet UInt32).elements := nofun
      rw [if_neg hempty]
      by_cases htask : report.task = task
      · rw [if_pos (hhears.2 ⟨rfl, htask⟩)]
        split <;> omega
      · have harrived := hall.resolve_right (Ne.symm htask)
        rw [if_pos harrived] at hbefore
        split <;> omega
    | false =>
      have hnone : ¬ step.commits report.checkpoint = true := by
        intro hyes
        have hpair := hcommits hyes
        rw [hcompleted] at hpair
        cases hpair.2
      rw [Quorum.arrived_add_of_awaited _ _ _ hcompleted, if_neg hnone]
      by_cases htask : report.task = task
      · rw [if_pos (hhears.2 ⟨rfl, htask⟩)]
        split at hbefore <;> split <;> omega
      · have hmem : task ∈ ((quorum.arrived report.checkpoint).insert report.task).elements ↔
            task ∈ (quorum.arrived report.checkpoint).elements := by
          rw [SequencedSet.mem_elements_insert]
          exact or_iff_left (Ne.symm htask)
        simp only [hmem]
        omega
  · have hnone : ¬ step.commits checkpoint = true := fun hyes ↦ hsame (hcommits hyes).1
    rw [Quorum.arrived_add_of_ne _ _ _ (Ne.symm hsame), if_neg hnone]
    omega

theorem Run.tallied {start current : Coordinator} {steps : List Step}
    (h : Run start steps current) (hstart : start.quorum = none) (checkpoint : Int64) :
    (current.quorum = none → steps.countP (·.commits checkpoint) = 0) ∧
      ∀ quorum, current.quorum = some quorum → Tallied steps checkpoint quorum := by
  induction h with
  | nil => exact ⟨fun _ ↦ rfl, fun quorum hquorum ↦ by rw [hstart] at hquorum; cases hquorum⟩
  | @snoc steps step hrun hstep ih =>
    cases haccepted : step.accepted? with
    | none =>
      have hcommits : step.commits checkpoint = false :=
        hstep.commits_of_not_accepted haccepted
      have hhears (task : UInt32) : step.hears checkpoint task = false := by
        rw [Step.hears, haccepted]
        rfl
      simp only [(hstep.of_not_accepted haccepted).1, Tallied, List.countP_append,
        List.countP_singleton, hcommits, hhears, Bool.false_eq_true, if_false, Nat.add_zero]
      exact ih
    | some report =>
      obtain ⟨known, hknown, hafter, hcounted⟩ := hstep.quorum_of_accepted haccepted
      have hheard : Heard steps checkpoint known := Heard.of_quorumFor
        (hrun.heard fun quorum hquorum ↦ by rw [hstart] at hquorum; cases hquorum) hknown
      have htallied : Tallied steps checkpoint known := by
        obtain ⟨-, hsome | ⟨hnone, hcreate⟩⟩ := Coordinator.quorumFor_eq_ok.1 hknown
        · exact ih.2 known hsome
        · intro task _
          rw [ih.1 hnone, Quorum.arrived_create hcreate, if_neg (by exact nofun)]
          exact Nat.zero_le _
      refine ⟨fun hnone ↦ ?_, fun quorum hquorum ↦ ?_⟩
      · rw [hafter] at hnone
        cases hnone
      · rw [hafter] at hquorum
        cases hquorum
        exact htallied.add hheard haccepted (Coordinator.quorumFor_eq_ok.1 hknown).1
          (hcounted checkpoint)

/-- All accepted reports of a run agree with the quorum on the number of writers. -/
theorem Run.fits {start current : Coordinator} {steps : List Step} (h : Run start steps current) :
    ∀ step ∈ steps, ∀ report, step.accepted? = some report →
      ∃ quorum, current.quorum = some quorum ∧ report.Fits quorum.total := by
  induction h with
  | nil => exact fun step hmem ↦ absurd hmem List.not_mem_nil
  | @snoc steps last _ hlast ih =>
    intro step hmem report haccepted
    cases hnext : last.accepted? with
    | none =>
      rw [(hlast.of_not_accepted hnext).1]
      rcases List.mem_append.1 hmem with hmem | hmem
      · exact ih step hmem report haccepted
      · rw [List.mem_singleton.1 hmem, hnext] at haccepted
        cases haccepted
    | some other =>
      obtain ⟨hevent, received, completed, hreceive⟩ := Step.accepted?_eq_some hnext
      obtain ⟨quorum, hquorum, hfits, hknown⟩ := Coordinator.receive_fits hreceive
      refine ⟨quorum, (hlast.of_receive hevent hreceive).1.trans hquorum, ?_⟩
      rcases List.mem_append.1 hmem with hmem | hmem
      · obtain ⟨known, hbefore, hfits⟩ := ih step hmem report haccepted
        rw [← hknown known hbefore]
        exact hfits
      · rw [List.mem_singleton.1 hmem, hnext] at haccepted
        cases haccepted
        exact hfits

/-- A checkpoint is committed at most once in each round of its reports: a commit is preceded by
reports of all writers, two commits are separated by such reports, and there are at most as many
commits as reports of any writer. The number of writers is the one that the quorum expects. -/
theorem one_commit_per_round {label : String} {options : SinkOptions} {restored : Bool}
    {loading : List Exchange} {start current : Coordinator} {steps : List Step}
    (hlaunch : Yields ((Coordinator.new label options).launch store restored) loading
      (.ok (), start))
    (hrun : Run start steps current) :
    ∃ writers : UInt32, writers ≠ 0 ∧
      (∀ quorum, current.quorum = some quorum → quorum.total = writers) ∧
      (∀ step ∈ steps, ∀ report, step.accepted? = some report → report.Fits writers) ∧
      ∀ checkpoint,
        (∀ earlier step later, steps = earlier ++ step :: later →
          step.commits checkpoint = true → ∀ task < writers,
            ∃ heard ∈ earlier ++ [step], heard.hears checkpoint task = true) ∧
        (∀ earlier first between second later,
          steps = earlier ++ first :: (between ++ second :: later) →
          first.commits checkpoint = true → second.commits checkpoint = true →
          ∀ task < writers,
            ∃ heard ∈ between ++ [second], heard.hears checkpoint task = true) ∧
        ∀ task < writers,
          steps.countP (·.commits checkpoint) ≤ steps.countP (·.hears checkpoint task) := by
  have hstart : start.quorum = none := by
    cases Coordinator.launched_of_yields hlaunch with
    | started stored hstored => rfl
  have hunheard (checkpoint : Int64) (quorum : Quorum) (hquorum : start.quorum = some quorum) :
      Heard [] checkpoint quorum := by
    rw [hstart] at hquorum
    cases hquorum
  have hfits : ∀ step ∈ steps, ∀ report, step.accepted? = some report →
      report.Fits ((current.quorum.map Quorum.total).getD 1) := by
    intro step hmem report haccepted
    obtain ⟨quorum, hquorum, hfits⟩ := hrun.fits step hmem report haccepted
    rw [hquorum]
    exact hfits
  refine ⟨_, ?_, fun quorum hquorum ↦ ?_, hfits, fun checkpoint ↦ ⟨?_, ?_, ?_⟩⟩
  · cases current.quorum with
    | none => decide
    | some quorum => exact quorum.total_ne_zero
  · rw [hquorum]
    rfl
  · intro earlier step later hsteps hcommits task htask
    rw [hsteps] at hrun hfits
    obtain ⟨hearlier, hstep, -⟩ := hrun.split_at
    exact hearlier.heard_of_commits hstep (hunheard checkpoint) (hfits step (by simp)) hcommits
      htask
  · intro earlier first between second later hsteps hfirst hsecond task htask
    rw [hsteps] at hrun hfits
    obtain ⟨-, hvalid, hrest⟩ := hrun.split_at
    obtain ⟨hbetween, hstep, -⟩ := hrest.split_at
    -- the first commit forgets the reports before it, so the second one needs others
    exact hbetween.heard_of_commits hstep (hvalid.heard_of_commits hfirst)
      (hfits second (by simp)) hsecond htask
  · intro task htask
    obtain ⟨hnone, hsome⟩ := hrun.tallied hstart checkpoint
    cases hquorum : current.quorum with
    | none =>
      rw [hnone hquorum]
      exact Nat.zero_le _
    | some quorum =>
      rw [hquorum] at htask
      exact (Nat.le_add_right _ _).trans (hsome quorum hquorum task htask)

/-- A coordinator that has been launched without a snapshot. -/
def pairStart : Coordinator :=
  (Coordinator.new "orders" (.ofLocation "/orders")).start .empty

/-- One of two writers reports checkpoint 5; nothing fails, and a number stands for the snapshots
that are drawn. -/
def pairStep (before : Coordinator) (snapshot : Nat) (task : UInt32) : Step :=
  .of (Call.granted ⟨"t1", "orders", "/orders", ""⟩ [] (.ofNumber snapshot)) before
    (.record ⟨5, task, 2, "orders", "", .ofList ["a"]⟩)

def firstReport : Step := pairStep pairStart 0 0
def secondReport : Step := pairStep firstReport.after 0 1
def firstAgain : Step := pairStep secondReport.after 1 0
def secondAgain : Step := pairStep firstAgain.after 1 1

theorem yields_launch_pairStart :
    Yields ((Coordinator.new "orders" (.ofLocation "/orders")).launch store false)
      [emitted (.pendingPartitions "orders" 0)] (.ok (), pairStart) :=
  yields_replay (Call.granted ⟨"t1", "orders", "/orders", ""⟩ [] (.ofNumber 0)) _

theorem one_commit_per_round_pair :
    secondReport.commits 5 = true ∧
      ∀ task < 2, ∃ heard ∈ [firstReport, secondReport], heard.hears 5 task = true := by
  have hrun : Run pairStart [firstReport, secondReport] secondReport.after :=
    (Run.nil.snoc (Step.valid_of _ _ _)).snoc (Step.valid_of _ _ _)
  have hcommits : secondReport.commits 5 = true := by decide +kernel
  obtain ⟨writers, -, hquorum, -, hrounds⟩ := one_commit_per_round yields_launch_pairStart hrun
  obtain rfl : writers = 2 := (hquorum _ (Option.some_get (by decide +kernel)).symm).symm.trans
    (by decide +kernel)
  exact ⟨hcommits, (hrounds 5).1 [firstReport] secondReport [] rfl hcommits⟩

/-- A checkpoint whose reports are all accepted again is committed again. -/
theorem committed_again_when_redelivered :
    ∃ loading current,
      Yields ((Coordinator.new "orders" (.ofLocation "/orders")).launch store false) loading
        (.ok (), pairStart) ∧
      Run pairStart [firstReport, secondReport, firstAgain, secondAgain] current ∧
      ¬ [firstReport, secondReport, firstAgain, secondAgain].countP (·.commits 5) ≤ 1 := by
  have hrun : Run pairStart [firstReport, secondReport, firstAgain, secondAgain] _ :=
    (((Run.nil.snoc (Step.valid_of _ _ _)).snoc (Step.valid_of _ _ _)).snoc
      (Step.valid_of _ _ _)).snoc (Step.valid_of _ _ _)
  exact ⟨_, _, yields_launch_pairStart, hrun, by decide +kernel⟩

end CommitCoordinator
