import CommitCoordinator.Proofs.Coordinator.Course
import Mathlib.Logic.Relation

/-!
# Listings under way at the same time

A bounded number of partitions may be listed at the same time. The listings end in any order, and
each draws the snapshot of its partition when it ends. What they found is taken in the order of the
partitions, and the first failure to be taken ends the scan. No schedule comes to another outcome
than listing one partition after the other, and none gets stuck.
-/

namespace CommitCoordinator

open Storage Dialogue

/-- Whether all listings in a transcript were answered by a function of the directory. -/
def ListedBy (listing : String → Except StorageError (List Entry))
    (transcript : List Exchange) : Prop :=
  ∀ directory answer, (⟨.list directory, answer⟩ : Exchange) ∈ transcript →
    answer = listing directory

theorem ListedBy.mono {listing : String → Except StorageError (List Entry)}
    {part transcript : List Exchange} (h : ListedBy listing transcript)
    (hpart : part ⊆ transcript) :
    ListedBy listing part :=
  fun directory answer hmem ↦ h directory answer (hpart hmem)

/-- The first partition whose directory cannot be listed. -/
def firstFailing (listing : String → Except StorageError (List Entry)) (options : SinkOptions)
    (partitions : List String) : Option String :=
  partitions.find? fun partition ↦ !(listing (joinPath options.location partition)).isOk

section Findings

variable {listing : String → Except StorageError (List Entry)} {options : SinkOptions}
  {findings : List Finding}

/-- Whether findings are what a listing says of their partitions. -/
def Truthful (listing : String → Except StorageError (List Entry)) (options : SinkOptions)
    (findings : List Finding) : Prop :=
  ∀ finding ∈ findings,
    listing (joinPath options.location finding.partition) = .ok finding.entries

theorem truthful_append_singleton {finding : Finding} :
    Truthful listing options (findings ++ [finding]) ↔ Truthful listing options findings ∧
      listing (joinPath options.location finding.partition) = .ok finding.entries := by
  simp only [Truthful, List.forall_mem_append, List.forall_mem_singleton]

theorem mem_exchanges_list {directory : String} {answer : Except StorageError (List Entry)} :
    (⟨.list directory, answer⟩ : Exchange) ∈ findings.flatMap (·.exchanges options) ↔
      ∃ finding ∈ findings, directory = joinPath options.location finding.partition ∧
        answer = .ok finding.entries := by
  simp [Finding.exchanges]

theorem listedBy_exchanges :
    ListedBy listing (findings.flatMap (·.exchanges options)) ↔
      Truthful listing options findings := by
  constructor
  · intro h finding hmem
    exact (h _ _ (mem_exchanges_list.2 ⟨finding, hmem, rfl, rfl⟩)).symm
  · intro h directory answer hmem
    obtain ⟨finding, hfinding, rfl, rfl⟩ := mem_exchanges_list.1 hmem
    exact (h finding hfinding).symm

theorem firstFailing_of_all (h : Truthful listing options findings) :
    firstFailing listing options (findings.map Finding.partition) = none := by
  apply List.find?_eq_none.2
  intro partition hpartition
  obtain ⟨finding, hmem, rfl⟩ := List.mem_map.1 hpartition
  rw [h finding hmem]
  exact Bool.false_ne_true

theorem firstFailing_of_failed (h : Truthful listing options findings) {partition : String}
    {cause : StorageError} (hfailed : listing (joinPath options.location partition) = .error cause)
    (rest : List String) :
    firstFailing listing options (findings.map Finding.partition ++ partition :: rest) =
      some partition := by
  have hearlier := firstFailing_of_all h
  unfold firstFailing at hearlier ⊢
  rw [List.find?_append, hearlier, Option.none_or, List.find?_cons_of_pos]
  rw [hfailed]
  rfl

end Findings

/-- A partition whose listing is under way, with what was found once the listing has ended. -/
structure Probe where
  partition : String
  found : Option (Except StorageError Finding)

/-- What has been taken from the listings that ended, the listings under way and the partitions
that wait for theirs. -/
structure Scanning where
  taken : List Finding
  probes : List Probe
  waiting : List String

namespace Scanning

def start (partitions : List String) : Scanning :=
  ⟨[], [], partitions⟩

/-- All partitions that a scan is about, in their order. -/
def partitions (scanning : Scanning) : List String :=
  scanning.taken.map Finding.partition ++
    (scanning.probes.map Probe.partition ++ scanning.waiting)

/-- How much of a scan is left: a partition has to be begun, ended and taken. -/
def remaining (scanning : Scanning) : Nat :=
  3 * scanning.waiting.length + scanning.probes.length +
    scanning.probes.countP fun probe ↦ probe.found.isNone

variable (listing : String → Except StorageError (List Entry)) (options : SinkOptions)

/-- What the listing of a partition finds if the given snapshot is drawn. -/
def outcomeOf (partition : String) (snapshot : Uuid) : Except StorageError Finding :=
  (listing (joinPath options.location partition)).map fun entries ↦
    ⟨partition, entries, snapshot⟩

/-- A step of a scan with a bound on the listings under way. -/
inductive Next (limit : Nat) : Scanning → Scanning → Prop where
  | begun {taken : List Finding} {probes : List Probe} (partition : String)
      {waiting : List String} (hroom : probes.length < limit) :
      Next limit ⟨taken, probes, partition :: waiting⟩
        ⟨taken, probes ++ [⟨partition, none⟩], waiting⟩
  | ended {taken : List Finding} (front : List Probe) (partition : String) (back : List Probe)
      {waiting : List String} (snapshot : Uuid) :
      Next limit ⟨taken, front ++ ⟨partition, none⟩ :: back, waiting⟩
        ⟨taken, front ++ ⟨partition, some (outcomeOf listing options partition snapshot)⟩ :: back,
          waiting⟩
  | took {taken : List Finding} (partition : String) (finding : Finding) {probes : List Probe}
      {waiting : List String} :
      Next limit ⟨taken, ⟨partition, some (.ok finding)⟩ :: probes, waiting⟩
        ⟨taken ++ [finding], probes, waiting⟩

/-- The outcome of a scan that has come to an end. -/
inductive Ends (options : SinkOptions) (fileMark : String) :
    Scanning → Except Attempt (List PartitionFiles) → Prop where
  | all (taken : List Finding) :
      Ends options fileMark ⟨taken, [], []⟩ (.ok (taken.map (·.toPart options fileMark)))
  | failed {taken : List Finding} (partition : String) (cause : StorageError)
      {probes : List Probe} {waiting : List String} :
      Ends options fileMark ⟨taken, ⟨partition, some (.error cause)⟩ :: probes, waiting⟩
        (.error (.listingFailed partition cause))

/-- Whether all that was found is what the listing says. -/
structure Sound (scanning : Scanning) : Prop where
  taken : Truthful listing options scanning.taken
  probes : ∀ probe ∈ scanning.probes, ∀ outcome, probe.found = some outcome →
    ∃ snapshot, outcome = outcomeOf listing options probe.partition snapshot

variable {listing options} {limit : Nat} {before after : Scanning}

theorem sound_start (partitions : List String) : Sound listing options (start partitions) :=
  ⟨fun _ hmem ↦ absurd hmem List.not_mem_nil, fun _ hmem ↦ absurd hmem List.not_mem_nil⟩

theorem outcomeOf_eq_ok {partition : String} {snapshot : Uuid} {finding : Finding}
    (h : outcomeOf listing options partition snapshot = .ok finding) :
    finding.partition = partition ∧
      listing (joinPath options.location partition) = .ok finding.entries := by
  unfold outcomeOf at h
  cases hlisting : listing (joinPath options.location partition) with
  | error cause =>
    rw [hlisting] at h
    cases h
  | ok entries =>
    rw [hlisting] at h
    cases h
    exact ⟨rfl, rfl⟩

theorem outcomeOf_eq_error {partition : String} {snapshot : Uuid} {cause : StorageError}
    (h : outcomeOf listing options partition snapshot = .error cause) :
    listing (joinPath options.location partition) = .error cause := by
  unfold outcomeOf at h
  cases hlisting : listing (joinPath options.location partition) with
  | error failure =>
    rw [hlisting] at h
    cases h
    rfl
  | ok entries =>
    rw [hlisting] at h
    cases h

/-- A step keeps the partitions in their order and what was found right. -/
theorem Next.preserves (h : Next listing options limit before after)
    (hsound : Sound listing options before) :
    Sound listing options after ∧ after.partitions = before.partitions := by
  obtain ⟨htaken, hprobes⟩ := hsound
  cases h with
  | begun partition hroom =>
    refine ⟨⟨htaken, fun probe hmem outcome hfound ↦ ?_⟩, by simp [partitions]⟩
    rcases List.mem_append.1 hmem with hmem | hmem
    · exact hprobes probe hmem outcome hfound
    · rw [List.mem_singleton.1 hmem] at hfound
      cases hfound
  | ended front partition back snapshot =>
    refine ⟨⟨htaken, fun probe hmem outcome hfound ↦ ?_⟩, by simp [partitions]⟩
    rcases List.mem_append.1 hmem with hmem | hmem
    · exact hprobes probe (List.mem_append_left _ hmem) outcome hfound
    · rcases List.mem_cons.1 hmem with rfl | hmem
      · exact ⟨snapshot, (Option.some.inj hfound).symm⟩
      · exact hprobes probe (List.mem_append_right _ (List.mem_cons_of_mem _ hmem)) outcome hfound
  | took partition finding =>
    obtain ⟨snapshot, hfound⟩ := hprobes _ List.mem_cons_self _ rfl
    obtain ⟨rfl, hlisting⟩ := outcomeOf_eq_ok hfound.symm
    exact ⟨⟨truthful_append_singleton.2 ⟨htaken, hlisting⟩,
      fun probe hmem ↦ hprobes probe (List.mem_cons_of_mem _ hmem)⟩, by simp [partitions]⟩

theorem preserves {partitions : List String}
    (h : Relation.ReflTransGen (Next listing options limit) (start partitions) after) :
    Sound listing options after ∧ after.partitions = partitions := by
  induction h with
  | refl => exact ⟨sound_start partitions, rfl⟩
  | tail _ hnext ih =>
    obtain ⟨hsound, hpartitions⟩ := hnext.preserves ih.1
    exact ⟨hsound, hpartitions.trans ih.2⟩

/-- The outcome of a scan is one of listing the partitions in turn. -/
theorem Ends.listed {fileMark : String} {scanning : Scanning}
    {outcome : Except Attempt (List PartitionFiles)} (h : Ends options fileMark scanning outcome)
    (hsound : Sound listing options scanning) :
    ∃ transcript, ListedBy listing transcript ∧
      Attempt.Listed options fileMark scanning.partitions transcript outcome := by
  obtain ⟨htaken, hprobes⟩ := hsound
  cases h with
  | all taken =>
    refine ⟨_, listedBy_exchanges.2 htaken, ?_⟩
    simpa [partitions] using Attempt.Listed.all taken
  | @failed taken partition cause probes waiting =>
    obtain ⟨snapshot, hfound⟩ := hprobes _ List.mem_cons_self _ rfl
    refine ⟨_, ?_, .failed taken partition (probes.map Probe.partition ++ waiting) cause⟩
    intro directory answer hmem
    rcases List.mem_append.1 hmem with hmem | hmem
    · exact listedBy_exchanges.2 htaken directory answer hmem
    · cases List.mem_singleton.1 hmem
      exact (outcomeOf_eq_error hfound.symm).symm

/-- Some step leads on from every scan that has not come to an end, and leaves less to do. -/
theorem exists_next (hlimit : 0 < limit) (fileMark : String) (scanning : Scanning) :
    (∃ outcome, Ends options fileMark scanning outcome) ∨
      ∃ after, Next listing options limit scanning after ∧
        after.remaining < scanning.remaining := by
  obtain ⟨taken, probes, waiting⟩ := scanning
  cases probes with
  | nil =>
    cases waiting with
    | nil => exact .inl ⟨_, .all taken⟩
    | cons partition waiting => exact .inr ⟨_, .begun partition hlimit, by simp [remaining]; omega⟩
  | cons probe probes =>
    obtain ⟨partition, found⟩ := probe
    rcases found with _ | cause | finding
    · exact .inr ⟨_, .ended [] partition probes (.ofNumber 0), by simp [remaining]⟩
    · exact .inl ⟨_, .failed partition cause⟩
    · exact .inr ⟨_, .took partition finding, by simp [remaining]⟩

/-- A scan that has begun can always be brought to an end. -/
theorem exists_ends (hlimit : 0 < limit) (fileMark : String) (scanning : Scanning) :
    ∃ after outcome, Relation.ReflTransGen (Next listing options limit) scanning after ∧
      Ends options fileMark after outcome := by
  induction hremaining : scanning.remaining using Nat.strongRecOn generalizing scanning with
  | ind remaining ih =>
    have hstep : (∃ outcome, Ends options fileMark scanning outcome) ∨
        ∃ after, Next listing options limit scanning after ∧
          after.remaining < scanning.remaining :=
      exists_next hlimit fileMark scanning
    obtain ⟨outcome, hends⟩ | ⟨after, hnext, hless⟩ := hstep
    · exact ⟨scanning, outcome, .refl, hends⟩
    · obtain ⟨last, outcome, hsteps, hends⟩ := ih _ (hremaining ▸ hless) after rfl
      exact ⟨last, outcome, .head hnext hsteps, hends⟩

end Scanning

/-- Whatever a listing answers, the partitions can be listed in turn with these answers. -/
theorem Attempt.Listed.yields {options : SinkOptions} {fileMark : String}
    {partitions : List String} {transcript : List Exchange}
    {outcome : Except Attempt (List PartitionFiles)}
    (h : Listed options fileMark partitions transcript outcome) :
    Yields (scanAll services.listing options fileMark partitions) transcript outcome := by
  have hturn (finding : Finding) {rest : List String} {transcript : List Exchange}
      {outcome : Except Attempt (List PartitionFiles)}
      (hrest : Yields (scanAll services.listing options fileMark rest) transcript outcome) :
      Yields (scanAll services.listing options fileMark (finding.partition :: rest))
        (finding.exchanges options ++ transcript)
        (outcome.map (finding.toPart options fileMark :: ·)) := by
    have hmap := hrest.bind (f := fun scanned ↦
      pure (scanned.map (finding.toPart options fileMark :: ·))) (.done _)
    rw [List.append_nil] at hmap
    exact yields_ask.2 ⟨Except.ok finding.entries, _, rfl,
      yields_ask.2 ⟨finding.snapshot, _, rfl, hmap⟩⟩
  cases h with
  | all findings =>
    induction findings with
    | nil => exact .done _
    | cons finding rest ih => exact hturn finding ih
  | failed findings partition rest cause =>
    induction findings with
    | nil => exact yields_ask.2 ⟨Except.error cause, _, rfl, .done _⟩
    | cons finding findings ih => exact hturn finding ih

/-- The first partition in order that cannot be listed decides the outcome. -/
theorem Attempt.Listed.of_firstFailing {listing : String → Except StorageError (List Entry)}
    {options : SinkOptions} {fileMark : String} {partitions : List String}
    {transcript : List Exchange} {outcome : Except Attempt (List PartitionFiles)}
    (h : Listed options fileMark partitions transcript outcome)
    (hlisting : ListedBy listing transcript) {partition : String} {cause : StorageError}
    (hfirst : firstFailing listing options partitions = some partition)
    (hcause : listing (joinPath options.location partition) = .error cause) :
    outcome = .error (.listingFailed partition cause) := by
  cases h with
  | all findings =>
    rw [firstFailing_of_all (listedBy_exchanges.1 hlisting)] at hfirst
    cases hfirst
  | failed findings failing rest failure =>
    have hfindings : Truthful listing options findings :=
      listedBy_exchanges.1 (hlisting.mono (List.subset_append_left _ _))
    have hfailure := hlisting _ _ (List.mem_append_right _ List.mem_cons_self)
    rw [firstFailing_of_failed hfindings hfailure.symm] at hfirst
    obtain rfl := Option.some.inj hfirst
    rw [hcause] at hfailure
    cases hfailure
    rfl

end CommitCoordinator
