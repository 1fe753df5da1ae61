import CommitCoordinator.Proofs.Coordinator.Conservation
import CommitCoordinator.Proofs.Effect.Reading
import CommitCoordinator.Proofs.Failover.Host

/-!
# What a step makes of accepted reports

A report that agrees on the number of writers is accepted by a coordinator that knows this number
or none yet. Each of its partitions becomes pending and stays so until a request that names it is
accepted. What the store holds changes only when a snapshot is written to it, and then to the
pending partitions of that moment.
-/

namespace CommitCoordinator

open Dialogue

/-! ## The quorum of the reports -/

/-- Whether a report agrees with a number of writers. -/
def Report.Fits (report : Report) (total : UInt32) : Prop :=
  report.taskCount = total ∧ ¬ total ≤ report.task

theorem Quorum.validate_eq_ok {quorum : Quorum} {report : Report} :
    quorum.validate report.task report.taskCount = .ok () ↔ report.Fits quorum.total := by
  unfold validate Report.Fits
  by_cases hcount : report.taskCount = quorum.total
  · by_cases htask : quorum.total ≤ report.task <;> simp [hcount, htask]
  · simp [hcount]

@[simp] theorem Quorum.total_add (quorum : Quorum) (checkpoint : Int64) (task : UInt32) :
    (quorum.add checkpoint task).1.total = quorum.total := by
  unfold add
  dsimp only
  split <;> rfl

namespace Coordinator

/-- The quorum of a report that agrees with it: the known one, or one that the report creates. -/
theorem quorumFor_eq_ok {coordinator : Coordinator} {report : Report} {quorum : Quorum} :
    coordinator.quorumFor report = .ok quorum ↔
      report.Fits quorum.total ∧ (coordinator.quorum = some quorum ∨
        coordinator.quorum = none ∧ Quorum.create report.taskCount = .ok quorum) := by
  have hquorumFor : coordinator.quorumFor report =
      coordinator.quorum.elim (Quorum.create report.taskCount) .ok >>= fun quorum ↦
        quorum.validate report.task report.taskCount >>= fun _ ↦ .ok quorum := by
    unfold quorumFor
    cases coordinator.quorum <;> rfl
  rw [hquorumFor, except_bind_eq_ok]
  constructor
  · rintro ⟨found, hfound, h⟩
    obtain ⟨_, hvalid, h⟩ := except_bind_eq_ok.1 h
    cases h
    refine ⟨Quorum.validate_eq_ok.1 hvalid, ?_⟩
    cases hknown : coordinator.quorum with
    | some known =>
      rw [hknown] at hfound
      exact .inl (congrArg some (Except.ok.inj hfound))
    | none =>
      rw [hknown] at hfound
      exact .inr ⟨rfl, hfound⟩
  · rintro ⟨hfits, hknown⟩
    refine ⟨quorum, ?_, except_bind_eq_ok.2 ⟨(), Quorum.validate_eq_ok.2 hfits, rfl⟩⟩
    rcases hknown with hknown | ⟨hknown, hcreate⟩
    · rw [hknown, Option.elim_some]
    · rw [hknown, Option.elim_none, hcreate]

/-- A report that agrees with a known number of writers, or comes first, is accepted. -/
theorem exists_quorumFor {coordinator : Coordinator} {report : Report} {total : UInt32}
    (htotal : total ≠ 0) (hfits : report.Fits total)
    (hquorum : ∀ quorum, coordinator.quorum = some quorum → quorum.total = total) :
    ∃ quorum, coordinator.quorumFor report = .ok quorum := by
  cases hknown : coordinator.quorum with
  | some known =>
    have hknownFits : report.Fits known.total := by
      rw [hquorum known hknown]
      exact hfits
    exact ⟨known, quorumFor_eq_ok.2 ⟨hknownFits, .inl hknown⟩⟩
  | none =>
    have hcount : report.taskCount ≠ 0 := hfits.1 ▸ htotal
    refine ⟨⟨report.taskCount, hcount, .empty⟩, quorumFor_eq_ok.2 ⟨⟨rfl, ?_⟩, .inr ⟨hknown, ?_⟩⟩⟩
    · change ¬ report.taskCount ≤ report.task
      rw [hfits.1]
      exact hfits.2
    · exact dif_neg hcount

theorem receive_fits {before received : Coordinator} {report : Report} {completed : Bool}
    (h : before.receive report = .ok (received, completed)) :
    ∃ quorum, received.quorum = some quorum ∧ report.Fits quorum.total ∧
      ∀ known, before.quorum = some known → known.total = quorum.total := by
  obtain ⟨pending, quorum, -, hquorum, -, rfl⟩ := receive_eq_ok h
  obtain ⟨hfits, hknown⟩ := quorumFor_eq_ok.1 hquorum
  refine ⟨_, rfl, by rwa [Quorum.total_add], fun known hsome ↦ ?_⟩
  rw [Quorum.total_add]
  rcases hknown with hknown | ⟨hnone, -⟩
  · rw [hknown] at hsome
    rw [Option.some.inj hsome]
  · rw [hnone] at hsome
    cases hsome

theorem exists_receive {before : Coordinator} {report : Report}
    (hinit : before.isInitialized = true) {quorum : Quorum}
    (hquorum : before.quorumFor report = .ok quorum) :
    ∃ received, before.receive report = .ok received := by
  obtain ⟨pending, hpending⟩ := Option.isSome_iff_exists.1 hinit
  exact ⟨_, by simp only [receive, hpending, hquorum]; rfl⟩

@[simp] theorem quorum_drain (coordinator : Coordinator) :
    coordinator.drain.2.quorum = coordinator.quorum := by
  unfold drain
  split <;> rfl

end Coordinator

/-! ## What a history owes -/

/-- Whether a partition was in a request that was accepted. -/
def Appended (history : List Moment) (partition : String) : Prop :=
  ∃ exchange, .exchanged exchange ∈ history ∧
    ∃ part ∈ exchange.accepted, part.partition = partition

/-- Whether a partition is among names or in a report of a list. -/
def Held (names : List String) (reports : List Report) (partition : String) : Prop :=
  partition ∈ names ∨ ∃ report ∈ reports, partition ∈ report.partitions.elements

/-- Whether each partition of an accepted report is held or was appended after the report. -/
def Covered (history : List Moment) (names : List String) (reports : List Report) : Prop :=
  ∀ earlier report later, history = earlier ++ .accepted report :: later →
    ∀ partition ∈ report.partitions.elements,
      Held names reports partition ∨ Appended later partition

theorem Appended.append_right {history : List Moment} {partition : String}
    (h : Appended history partition) (later : List Moment) :
    Appended (history ++ later) partition := by
  obtain ⟨exchange, hmem, hpart⟩ := h
  exact ⟨exchange, List.mem_append_left later hmem, hpart⟩

theorem Appended.append_left {later : List Moment} {partition : String}
    (h : Appended later partition) (history : List Moment) :
    Appended (history ++ later) partition := by
  obtain ⟨exchange, hmem, hpart⟩ := h
  exact ⟨exchange, List.mem_append_right history hmem, hpart⟩

/-- Nothing is lost over further moments that keep what is held or append it. -/
theorem Covered.extend {history further : List Moment} {names names' : List String}
    {reports reports' : List Report} (h : Covered history names reports)
    (hkeep : ∀ partition, Held names reports partition →
      Held names' reports' partition ∨ Appended further partition)
    (hfurther : Covered further names' reports') :
    Covered (history ++ further) names' reports' := by
  intro earlier report later heq partition hpartition
  rcases List.append_eq_append_iff.1 heq with ⟨middle, rfl, hrest⟩ | ⟨middle, hhistory, hrest⟩
  · exact hfurther middle report later hrest partition hpartition
  · cases middle with
    | nil => exact hfurther [] report later hrest.symm partition hpartition
    | cons moment middle =>
      obtain ⟨rfl, rfl⟩ := List.cons.inj hrest
      rcases h earlier report middle hhistory partition hpartition with hheld | happended
      · rcases hkeep partition hheld with hheld | happended
        · exact .inl hheld
        · exact .inr (happended.append_left middle)
      · exact .inr (happended.append_right further)

theorem covered_exchanged (exchanges : List Exchange) (names : List String)
    (reports : List Report) : Covered (exchanges.map .exchanged) names reports := by
  intro earlier report later heq
  have hmem : Moment.accepted report ∈ exchanges.map .exchanged := by
    rw [heq]
    exact List.mem_append_right _ List.mem_cons_self
  simp at hmem

theorem Step.covered_moments {step : Step} {answered : List Exchange} {names : List String}
    {reports : List Report}
    (h : ∀ report, step.accepted? = some report → ∀ partition ∈ report.partitions.elements,
      Held names reports partition ∨ Appended (answered.map .exchanged) partition) :
    Covered (step.moments answered) names reports := by
  unfold moments
  cases haccepted : step.accepted? with
  | none => exact covered_exchanged answered names reports
  | some report =>
    intro earlier other later heq partition hpartition
    cases earlier with
    | nil =>
      obtain ⟨hreport, rfl⟩ := List.cons.inj heq
      cases hreport
      exact h report haccepted partition hpartition
    | cons moment earlier =>
      obtain ⟨-, hrest⟩ := List.cons.inj heq
      exact covered_exchanged answered names reports earlier other later hrest partition hpartition

theorem Appended.of_mem_transcript {answered : List Exchange} {exchange : Exchange}
    (hmem : exchange ∈ answered) {part : PartitionAppend} (hpart : part ∈ exchange.accepted) :
    Appended (answered.map .exchanged) part.partition :=
  ⟨exchange, List.mem_map.2 ⟨exchange, hmem, rfl⟩, part, hpart, rfl⟩

theorem Appended.moments {step : Step} {answered : List Exchange} {partition : String}
    (h : Appended (answered.map .exchanged) partition) :
    Appended (step.moments answered) partition :=
  h.append_left _

/-! ## Steps -/

namespace Step

variable {step : Step}

theorem accepted?_eq_some {report : Report} (h : step.accepted? = some report) :
    step.event = .record report ∧
      ∃ received completed, step.before.receive report = .ok (received, completed) := by
  unfold accepted? at h
  split at h
  · rename_i hevent
    split at h
    · rename_i outcome hreceive
      cases h
      exact ⟨hevent, outcome.1, outcome.2, hreceive⟩
    · cases h
  · cases h

theorem accepted?_of_receive {report : Report} {outcome : Coordinator × Bool}
    (hevent : step.event = .record report)
    (hreceive : step.before.receive report = .ok outcome) : step.accepted? = some report := by
  simp only [accepted?, hevent, hreceive]

/-- What an accepted report leads to: all that it makes pending stays so or is appended. -/
theorem Valid.of_receive {report : Report} {received : Coordinator} {completed : Bool}
    (h : step.Valid) (hevent : step.event = .record report)
    (hreceive : step.before.receive report = .ok (received, completed)) :
    step.after.quorum = received.quorum ∧ ∀ partition ∈ received.pendingList,
      partition ∈ step.after.pendingList ∨
        Appended (step.transcript.map .exchanged) partition := by
  cases completed with
  | false =>
    obtain ⟨-, -, hafter⟩ := (h.processed hevent).of_awaited hreceive
    rw [hafter]
    exact ⟨rfl, fun partition hmem ↦ .inl hmem⟩
  | true =>
    obtain ⟨hnone, -, -, hafter⟩ | ⟨-, exchanges, attempt, hcourse, htranscript, -, hafter⟩ :=
      (h.processed hevent).of_completed hreceive
    · rw [hafter, hnone]
      exact ⟨Coordinator.quorum_drain received, fun partition hmem ↦ absurd hmem List.not_mem_nil⟩
    · rw [hafter, Coordinator.afterAttempt]
      split
      · rename_i happended
        refine ⟨Coordinator.quorum_drain received, fun partition hmem ↦ .inr ?_⟩
        obtain ⟨exchange, hexchange, part, hpart, rfl⟩ := hcourse.exists_accepted happended hmem
        refine Appended.of_mem_transcript ?_ hpart
        rw [htranscript]
        exact List.mem_cons_of_mem _ (List.mem_append_left _ hexchange)
      · exact ⟨rfl, fun partition hmem ↦ .inl hmem⟩

/-- A step without an accepted report leaves the pending partitions and the quorum alone. -/
theorem Valid.of_not_accepted (h : step.Valid) (hnone : step.accepted? = none) :
    step.after.quorum = step.before.quorum ∧
      step.after.pendingList = step.before.pendingList := by
  cases hevent : step.event with
  | watermark timestamp =>
    rw [(h.observed hevent).2.2]
    exact ⟨rfl, rfl⟩
  | checkpoint checkpoint =>
    obtain ⟨_, -, -, hafter⟩ := h.stored hevent
    rw [hafter]
    exact ⟨rfl, rfl⟩
  | record report =>
    cases hreceive : step.before.receive report with
    | ok outcome => rw [accepted?_of_receive hevent hreceive] at hnone; cases hnone
    | error cause =>
      rw [((h.processed hevent).of_refused hreceive).2.2]
      exact ⟨rfl, rfl⟩

end Step

/-! ## What the store holds -/

theorem Persists.eq_or_mem {before after : List Snapshot} {seen : List Exchange}
    (h : Persists before seen after) :
    after = before ∨ ∃ written, (⟨.store after, written⟩ : Exchange) ∈ seen := by
  induction h with
  | nil stored => exact .inl rfl
  | stored _ ih =>
    rcases ih with rfl | ⟨written, hmem⟩
    · exact .inr ⟨.ok (), List.mem_cons_self⟩
    · exact .inr ⟨written, List.mem_cons_of_mem _ hmem⟩
  | lost _ _ ih => exact ih.imp_right fun ⟨written, hmem⟩ ↦ ⟨written, List.mem_cons_of_mem _ hmem⟩
  | kept cause _ ih =>
    rcases ih with rfl | ⟨written, hmem⟩
    · exact .inr ⟨.error cause, List.mem_cons_self⟩
    · exact .inr ⟨written, List.mem_cons_of_mem _ hmem⟩
  | elsewhere _ _ ih =>
    exact ih.imp_right fun ⟨written, hmem⟩ ↦ ⟨written, List.mem_cons_of_mem _ hmem⟩

theorem Attempt.Course.any_isStore {options : SinkOptions} {report : Report}
    {partitions : List String} {transcript : List Exchange} {attempt : Attempt}
    (h : Attempt.Course options report partitions transcript attempt) :
    transcript.any Exchange.isStore = false := by
  have hfindings := any_flatMap_exchanges Exchange.isStore options (fun _ _ ↦ rfl) (fun _ ↦ rfl)
  cases h with
  | lookupFailed cause => rfl
  | listingFailed table findings partition rest cause => simp [hfindings, Exchange.isStore]
  | sent table findings time hpartitions hphases =>
    cases hphases <;> simp [hfindings, Exchange.isStore]

theorem Coordinator.Processed.any_isStore {before after : Coordinator} {report : Report}
    {transcript : List Exchange} {result : Except CommitError (Option CommitSummary)}
    (h : before.Processed report transcript result after) :
    transcript.any Exchange.isStore = false := by
  cases h with
  | @refused cause _ => cases cause <;> rfl
  | awaited _ => rfl
  | idle _ _ => rfl
  | attempted _ _ hcourse =>
    rw [List.any_cons, List.any_append, hcourse.any_isStore, any_map_emitted fun _ ↦ rfl]
    rfl

theorem Coordinator.storedNames_snapshot {coordinator : Coordinator} {pending : Pending}
    (h : coordinator.pending = some pending) (checkpoint watermark : Int64) :
    Pending.storedNames [pending.snapshot checkpoint watermark] = coordinator.pendingList :=
  (pendingList_eq_toList h).symm

/-- Only a checkpoint writes to the store, and it writes what is pending. -/
theorem Step.Valid.names_of_store {step : Step} (h : step.Valid) {snapshots : List Snapshot}
    {written : Except StateError Unit}
    (hmem : (⟨.store snapshots, written⟩ : Exchange) ∈ step.transcript) :
    (∃ checkpoint, step.event = .checkpoint checkpoint) ∧
      Pending.storedNames snapshots = step.before.pendingList := by
  cases hevent : step.event with
  | record report =>
    have hnone := List.any_eq_false.1 (h.processed hevent).any_isStore _ hmem
    exact absurd rfl hnone
  | watermark timestamp =>
    rw [(h.observed hevent).1] at hmem
    cases hmem
  | checkpoint checkpoint =>
    refine ⟨⟨checkpoint, rfl⟩, ?_⟩
    obtain ⟨result, hstored, -, -⟩ := h.stored hevent
    generalize step.transcript = transcript at hstored hmem
    cases hstored with
    | uninitialized _ => cases hmem
    | failed cause hpending =>
      cases List.mem_singleton.1 hmem
      exact Coordinator.storedNames_snapshot hpending _ _
    | stored hpending =>
      rcases List.mem_cons.1 hmem with hfirst | hrest
      · cases hfirst
        exact Coordinator.storedNames_snapshot hpending _ _
      · cases List.mem_singleton.1 hrest

/-- A checkpoint that succeeds leaves the pending partitions in the store. -/
theorem Step.Valid.names_of_success {step : Step} (h : step.Valid) {checkpoint : Int64}
    (hevent : step.event = .checkpoint checkpoint) {summary : Option CommitSummary}
    (hresult : step.result = .ok summary) {before after : List Snapshot}
    (hpersists : Persists before step.transcript after) :
    Pending.storedNames after = step.before.pendingList := by
  obtain ⟨result, hstored, hmap, -⟩ := h.stored hevent
  rw [hresult] at hmap
  generalize step.transcript = transcript at hstored hpersists
  cases hstored with
  | uninitialized _ => cases hmap
  | failed cause _ => cases hmap
  | stored hpending =>
    cases hpersists with
    | elsewhere hstore _ => cases hstore
    | stored hrest =>
      cases hrest with
      | elsewhere _ hnil =>
        cases hnil
        exact Coordinator.storedNames_snapshot hpending _ _

end CommitCoordinator
