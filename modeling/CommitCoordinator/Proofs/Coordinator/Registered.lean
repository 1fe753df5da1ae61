import CommitCoordinator.Proofs.Coordinator.Schedules
import CommitCoordinator.Proofs.Coordinator.Twins
import CommitCoordinator.Proofs.Coordinator.TwoPhase

/-!
# What a commit registers

A commit registers the files that it has found and nothing else: the request and the manifests go
through the drained partitions in their order, side by side, and a manifest has one file for each
entry that is a closed file of the task, in the order of the listing. A partition that cannot be
listed keeps everything from the catalog.
-/

namespace CommitCoordinator

open Storage Dialogue

/-- Whether an entry is a closed file of a task: not a directory, with the mark of the task
somewhere in its path and the mark of open files nowhere. -/
def IsClosedFile (openMark fileMark : String) (entry : Entry) : Prop :=
  entry.isDir = false ∧ fileMark.toList <:+: entry.path.toList ∧
    ¬ openMark.toList <:+: entry.path.toList

instance (openMark fileMark : String) (entry : Entry) :
    Decidable (IsClosedFile openMark fileMark entry) :=
  inferInstanceAs (Decidable (_ ∧ _ ∧ _))

/-- The files that a commit adds for the entries of a directory. -/
def addedFiles (options : SinkOptions) (fileMark : String) (entries : List Entry) :
    List DataFile :=
  (entries.filter fun entry ↦ IsClosedFile options.openMark fileMark entry).map fun entry ↦
    ⟨entry.path, entry.size, .add, options.columns⟩

/-- The request that appends the snapshots of findings. -/
def requestOf (table : Table) (findings : List Finding) : AppendRequest :=
  ⟨table, findings.map fun finding ↦
    ⟨table.id, finding.partition, .append, [finding.snapshot]⟩⟩

/-- The manifests that describe the snapshots of findings. -/
def manifestsOf (options : SinkOptions) (fileMark : String) (table : Table) (time : Int64)
    (findings : List Finding) : List Manifest :=
  findings.map fun finding ↦
    ⟨finding.snapshot, table.id, finding.partition, .append, time,
      addedFiles options fileMark finding.entries⟩

theorem isTaskFile_eq_true {openMark fileMark : String} {entry : Entry} :
    isTaskFile openMark fileMark entry = true ↔ IsClosedFile openMark fileMark entry := by
  simp only [isTaskFile, IsClosedFile, Text.containsText, Bool.and_eq_true, Bool.not_eq_true',
    Bool.eq_false_iff, ne_eq, Text.occursIn_iff_infix, and_assoc]

theorem map_added_taskFiles (options : SinkOptions) (fileMark : String) (entries : List Entry) :
    (taskFiles options.openMark fileMark entries).map
        (fun file ↦ DataFile.added file.path file.size options.columns) =
      addedFiles options fileMark entries := by
  have htest : isTaskFile options.openMark fileMark =
      fun entry ↦ decide (IsClosedFile options.openMark fileMark entry) := by
    funext entry
    rw [Bool.eq_iff_iff, decide_eq_true_iff, isTaskFile_eq_true]
  rw [taskFiles, List.map_map, htest]
  rfl

/-- The payload of findings goes through them twice. -/
theorem payloadOf_eq (options : SinkOptions) (fileMark : String) (table : Table)
    (findings : List Finding) (time : Int64) :
    payloadOf options fileMark table findings time =
      ⟨requestOf table findings, manifestsOf options fileMark table time findings⟩ := by
  have hmanifest (finding : Finding) :
      (finding.toPart options fileMark).toManifest table options.columns time =
        ⟨finding.snapshot, table.id, finding.partition, .append, time,
          addedFiles options fileMark finding.entries⟩ := by
    rw [← map_added_taskFiles]
    rfl
  simp only [payloadOf, Payload.assemble, List.map_map, Function.comp_def, hmanifest]
  rfl

/-- A commit tells of the partitions, snapshots and files of its payload. -/
theorem summarize_payloadOf {options : SinkOptions} {report : Report} {table : Table}
    {findings : List Finding} {time : Int64} (partitions : List String) :
    Coordinator.summarize report partitions
        (payloadOf options report.fileMark table findings time) =
      ⟨report.checkpoint, table.id, partitions, findings.map Finding.snapshot,
        ((manifestsOf options report.fileMark table time findings).flatMap
          Manifest.files).length⟩ := by
  rw [Coordinator.summarize, payloadOf_eq, Payload.snapshots, Payload.fileCount]
  congr 1
  exact List.map_map

/-- The calls that prepare the payload of findings. -/
def preparation (options : SinkOptions) (report : Report) (table : Table)
    (findings : List Finding) (time : Int64) : List Exchange :=
  ⟨.lookup report.table, .ok table⟩ :: (findings.flatMap (·.exchanges options) ++
    [⟨.currentTime, time⟩])

theorem yields_prepare {options : SinkOptions} {report : Report} (table : Table)
    (findings : List Finding) (time : Int64) :
    Yields (Attempt.prepare services options report (findings.map Finding.partition))
      (preparation options report table findings time)
      (.ok (payloadOf options report.fileMark table findings time)) := by
  have hlisted : Attempt.Listed options report.fileMark (findings.map Finding.partition) _ _ :=
    .all findings
  refine yields_ask.2 ⟨Except.ok table, _, rfl, ?_⟩
  exact hlisted.yields.bind (yields_ask.2 ⟨time, _, rfl, .done _⟩)

/-! ## How far a commit comes -/

/-- Whether a call belongs to one of the two phases. -/
def Exchange.isPhase (exchange : Exchange) : Bool :=
  exchange.isAppend || exchange.isInsert

theorem any_isPhase_findings (options : SinkOptions) (findings : List Finding) :
    (findings.flatMap (·.exchanges options)).any Exchange.isPhase = false :=
  any_flatMap_exchanges Exchange.isPhase options (fun _ _ ↦ rfl) (fun _ ↦ rfl) findings

theorem any_isPhase_emitted (events : List MetricEvent) :
    (events.map emitted).any Exchange.isPhase = false :=
  any_map_emitted (fun _ ↦ rfl) events

namespace Attempt.Course

variable {options : SinkOptions} {report : Report} {partitions : List String}
  {exchanges : List Exchange} {attempt : Attempt}

/-- Only an attempt that has found all files comes to a phase. -/
theorem sent_of_isPhase (h : Course options report partitions exchanges attempt)
    (hphase : exchanges.any Exchange.isPhase = true) :
    ∃ table findings time phases, partitions = findings.map Finding.partition ∧
      exchanges = preparation options report table findings time ++ phases ∧
      Phases (payloadOf options report.fileMark table findings time) phases attempt := by
  cases h with
  | lookupFailed cause => cases hphase
  | listingFailed table findings partition rest cause =>
    rw [List.any_cons, List.any_append, any_isPhase_findings] at hphase
    cases hphase
  | @sent table findings time phases _ hpartitions hphases =>
    exact ⟨table, findings, time, phases, hpartitions, by simp [preparation], hphases⟩

/-- The first partition that cannot be listed ends an attempt that has found its table. -/
theorem of_firstFailing (h : Course options report partitions exchanges attempt)
    {listing : String → Except StorageError (List Entry)} (hlisting : ListedBy listing exchanges)
    {table : Table} (hlookup : (⟨.lookup report.table, .ok table⟩ : Exchange) ∈ exchanges)
    {partition : String} {cause : StorageError}
    (hfirst : firstFailing listing options partitions = some partition)
    (hcause : listing (joinPath options.location partition) = .error cause) :
    attempt = .listingFailed partition cause ∧ exchanges.any Exchange.isPhase = false := by
  cases h with
  | lookupFailed failure => simp at hlookup
  | listingFailed found findings failing rest failure hpartitions =>
    have hfindings : Truthful listing options findings :=
      listedBy_exchanges.1 (hlisting.mono fun exchange hmem ↦
        List.mem_cons_of_mem _ (List.mem_append_left _ hmem))
    have hfailure : .error failure = listing (joinPath options.location failing) :=
      hlisting _ _ (List.mem_cons_of_mem _ (List.mem_append_right _ List.mem_cons_self))
    rw [hpartitions, firstFailing_of_failed hfindings hfailure.symm] at hfirst
    obtain rfl := Option.some.inj hfirst
    rw [hcause] at hfailure
    cases hfailure
    refine ⟨rfl, ?_⟩
    rw [List.any_cons, List.any_append, any_isPhase_findings]
    rfl
  | sent found findings time hpartitions =>
    have hfindings : Truthful listing options findings :=
      listedBy_exchanges.1 (hlisting.mono fun exchange hmem ↦
        List.mem_cons_of_mem _ (List.mem_append_left _ hmem))
    rw [hpartitions, firstFailing_of_all hfindings] at hfirst
    cases hfirst

end Attempt.Course

/-- Both phases send the payload that was assembled. -/
theorem Attempt.Phases.eq_append_cons {payload : Payload} {phases : List Exchange}
    {attempt : Attempt} (h : Attempt.Phases payload phases attempt) :
    ∃ accepted rest, phases = ⟨.append payload.request true .append, accepted⟩ :: rest ∧
      rest.any Exchange.isAppend = false ∧
      (∀ manifests inserted, (⟨.insert manifests, inserted⟩ : Exchange) ∈ rest →
        manifests = payload.manifests) ∧
      ∀ sent, attempt = .committed sent → sent = payload := by
  cases h with
  | appendFailed cause => exact ⟨.error cause, [], rfl, rfl, nofun, nofun⟩
  | rejected => exact ⟨.ok false, [], rfl, rfl, nofun, nofun⟩
  | insertFailed cause =>
    refine ⟨.ok true, [⟨.insert payload.manifests, .error cause⟩], rfl, rfl, ?_, nofun⟩
    intro manifests inserted hmem
    cases List.mem_singleton.1 hmem
    rfl
  | committed =>
    refine ⟨.ok true, [⟨.insert payload.manifests, .ok ()⟩], rfl, rfl, ?_, fun sent hsent ↦ ?_⟩
    · intro manifests inserted hmem
      cases List.mem_singleton.1 hmem
      rfl
    · exact (Attempt.committed.inj hsent).symm

theorem any_isAppend_preparation (options : SinkOptions) (report : Report) (table : Table)
    (findings : List Finding) (time : Int64) :
    (preparation options report table findings time).any Exchange.isAppend = false := by
  rw [preparation, List.any_cons, List.any_append,
    any_flatMap_exchanges Exchange.isAppend options (fun _ _ ↦ rfl) fun _ ↦ rfl]
  rfl

/-- The first phase has only one request, so that divides the calls in only one way. -/
theorem eq_of_append_split {label : String} {options : SinkOptions} {report : Report}
    {table : Table} {findings : List Finding} {time : Int64} {request sent : AppendRequest}
    {keep : Bool} {mode : CommitMode} {answer accepted : Except CatalogError Bool}
    {rest front back : List Exchange} {events : List MetricEvent}
    (hrest : rest.any Exchange.isAppend = false)
    (h : emitted (.quorumReached label) :: (preparation options report table findings time ++
        ⟨.append sent true .append, answer⟩ :: rest ++ events.map emitted) =
      front ++ ⟨.append request keep mode, accepted⟩ :: back) :
    front = emitted (.quorumReached label) :: preparation options report table findings time ∧
      request = sent := by
  rw [List.append_assoc, List.cons_append, ← List.cons_append] at h
  have hbefore : (emitted (.quorumReached label) ::
      preparation options report table findings time).any Exchange.isAppend = false := by
    rw [List.any_cons, any_isAppend_preparation]
    rfl
  have hafter : (rest ++ events.map emitted).any Exchange.isAppend = false := by
    rw [List.any_append, hrest, any_map_emitted fun _ ↦ rfl]
    rfl
  obtain ⟨rfl, hsame, -⟩ := append_cons_inj_of_any hbefore hafter rfl h
  cases hsame
  exact ⟨rfl, rfl⟩

theorem partitions_requestOf (table : Table) (findings : List Finding) :
    (requestOf table findings).partitions.map PartitionAppend.partition =
      findings.map Finding.partition := by
  simp [requestOf]

theorem snapshots_requestOf (table : Table) (findings : List Finding) :
    (requestOf table findings).snapshots = findings.map Finding.snapshot := by
  rw [requestOf, AppendRequest.snapshots, List.flatMap_map]
  exact List.flatMap_pure_eq_map Finding.snapshot findings

/-- Whether the first phase of a commit, after the given calls, is about what was found in the
drained partitions, each of which has been listed; the second phase and the summary, if the commit
comes to them, are about the same. -/
structure Registers (listing : String → Except StorageError (List Entry)) (report : Report)
    (received : Coordinator) (step : Step) (prepared : List Exchange) (table : Table)
    (findings : List Finding) (time : Int64) : Prop where
  drained : findings.map Finding.partition = received.pendingList
  distinct : received.pendingList.Nodup
  truthful : Truthful listing received.options findings
  found : (⟨.lookup report.table, .ok table⟩ : Exchange) ∈ prepared
  assembled : Yields (Attempt.prepare services received.options report received.pendingList)
    prepared (.ok ⟨requestOf table findings,
      manifestsOf received.options report.fileMark table time findings⟩)
  inserted : ∀ manifests answer, (⟨.insert manifests, answer⟩ : Exchange) ∈ step.transcript →
    manifests = manifestsOf received.options report.fileMark table time findings
  summary : ∀ summary, step.result = .ok (some summary) →
    summary = ⟨report.checkpoint, table.id,
      (requestOf table findings).partitions.map PartitionAppend.partition,
      (requestOf table findings).snapshots,
      ((manifestsOf received.options report.fileMark table time findings).flatMap
        Manifest.files).length⟩

namespace Step

variable {step : Step} {report : Report} {received : Coordinator}
  {listing : String → Except StorageError (List Entry)}

theorem Valid.registers (h : step.Valid) (hevent : step.event = .record report)
    (hreceive : step.before.receive report = .ok (received, true))
    (hlisting : ListedBy listing step.transcript) {front back : List Exchange}
    {request : AppendRequest} {keep : Bool} {mode : CommitMode}
    {accepted : Except CatalogError Bool}
    (hsplit : step.transcript = front ++ ⟨.append request keep mode, accepted⟩ :: back) :
    ∃ prepared table findings time, front = emitted (.quorumReached received.label) :: prepared ∧
      request = requestOf table findings ∧
      Registers listing report received step prepared table findings time := by
  have happend : step.transcript.any Exchange.isPhase = true :=
    List.any_eq_true.2 ⟨_, hsplit ▸ List.mem_append_right _ List.mem_cons_self, rfl⟩
  obtain ⟨-, htranscript, -, -⟩ | ⟨-, exchanges, attempt, hcourse, htranscript, hresult, -⟩ :=
    (h.processed hevent).of_completed hreceive
  · rw [htranscript] at happend
    cases happend
  · rw [htranscript, List.any_cons, List.any_append, any_isPhase_emitted, Bool.or_false] at happend
    obtain ⟨table, findings, time, phases, hpartitions, rfl, hphases⟩ :=
      hcourse.sent_of_isPhase happend
    obtain ⟨answer, rest, rfl, hrest, hinserted, hcommitted⟩ := hphases.eq_append_cons
    rw [payloadOf_eq] at hinserted
    obtain ⟨rfl, rfl⟩ := eq_of_append_split hrest (htranscript.symm.trans hsplit)
    refine ⟨_, table, findings, time, rfl, by rw [payloadOf_eq], ?_⟩
    have htruthful : Truthful listing received.options findings := by
      refine listedBy_exchanges.1 (hlisting.mono fun exchange hmem ↦ ?_)
      rw [htranscript]
      simp [preparation, hmem]
    constructor
    case drained => exact hpartitions.symm
    case distinct => exact received.nodup_pendingList
    case truthful => exact htruthful
    case found => exact List.mem_cons_self
    case assembled =>
      rw [hpartitions, ← payloadOf_eq]
      exact yields_prepare table findings time
    case inserted =>
      intro manifests inserted hmem
      have hphase : (⟨.insert manifests, inserted⟩ : Exchange) ∈ rest := by
        rw [htranscript] at hmem
        simpa [preparation, emitted, Finding.exchanges] using hmem
      exact hinserted manifests inserted hphase
    case summary =>
      intro summary hsummary
      rw [hresult] at hsummary
      cases attempt with
      | committed sent =>
        cases hcommitted sent rfl
        cases hsummary
        rw [summarize_payloadOf, partitions_requestOf, snapshots_requestOf, hpartitions]
      | _ => cases hsummary

/-- A commit that cannot list a partition tells of the first such partition and comes to no
phase. -/
theorem Valid.of_firstFailing (h : step.Valid) (hevent : step.event = .record report)
    (hreceive : step.before.receive report = .ok (received, true))
    (hlisting : ListedBy listing step.transcript) {table : Table}
    (hlookup : (⟨.lookup report.table, .ok table⟩ : Exchange) ∈ step.transcript)
    {partition : String} {cause : StorageError}
    (hfirst : firstFailing listing received.options received.pendingList = some partition)
    (hcause : listing (joinPath received.options.location partition) = .error cause) :
    step.result = .error (.listing partition cause) ∧
      step.transcript.any Exchange.isPhase = false := by
  obtain ⟨-, htranscript, -, -⟩ | ⟨-, exchanges, attempt, hcourse, htranscript, hresult, -⟩ :=
    (h.processed hevent).of_completed hreceive
  · rw [htranscript] at hlookup
    cases List.mem_singleton.1 hlookup
  · have hpart : exchanges ⊆ step.transcript := by
      rw [htranscript]
      exact fun exchange hmem ↦ List.mem_cons_of_mem _ (List.mem_append_left _ hmem)
    rw [htranscript] at hlookup
    obtain ⟨rfl, hphase⟩ := hcourse.of_firstFailing (hlisting.mono hpart)
      (by simpa [emitted] using hlookup) hfirst hcause
    rw [htranscript, hresult, List.any_cons, List.any_append, hphase, any_isPhase_emitted]
    exact ⟨rfl, rfl⟩

/-- A commit with a summary has come to the first phase. -/
theorem Valid.any_isAppend (h : step.Valid) (hevent : step.event = .record report)
    (hreceive : step.before.receive report = .ok (received, true)) {summary : CommitSummary}
    (hsummary : step.result = .ok (some summary)) :
    step.transcript.any Exchange.isAppend = true := by
  obtain ⟨-, -, hnone, -⟩ | ⟨-, exchanges, attempt, hcourse, htranscript, hresult, -⟩ :=
    (h.processed hevent).of_completed hreceive
  · rw [hnone] at hsummary
    cases hsummary
  · rw [hsummary] at hresult
    have hinserted := hcourse.any_isInserted.2 ⟨summary, hresult.symm⟩
    have hphase : exchanges.any Exchange.isPhase = true := by
      obtain ⟨exchange, hmem, hexchange⟩ := List.any_eq_true.1 hinserted
      refine List.any_eq_true.2 ⟨exchange, hmem, ?_⟩
      obtain ⟨call, answer⟩ := exchange
      cases call <;> first | rfl | cases hexchange
    obtain ⟨table, findings, time, phases, -, rfl, hphases⟩ := hcourse.sent_of_isPhase hphase
    obtain ⟨accepted, rest, rfl, -, -, -⟩ := hphases.eq_append_cons
    rw [htranscript]
    simp [Exchange.isAppend]

end Step

/-- A commit that comes to the first phase is about the closed files of its task in the drained
partitions; one that cannot list them all tells of the first that it cannot list, and comes to no
phase. Listing several partitions at the same time comes to an end, and to none that listing them in
turn could not come to. -/
theorem scanned_files_are_registered {step : Step} {report : Report} {received : Coordinator}
    (h : step.Valid) (hevent : step.event = .record report)
    (hreceive : step.before.receive report = .ok (received, true))
    {listing : String → Except StorageError (List Entry)}
    (hlisting : ListedBy listing step.transcript) :
    (∀ front request keep mode accepted back,
      step.transcript = front ++ ⟨.append request keep mode, accepted⟩ :: back →
        ∃ prepared table findings time,
          front = emitted (.quorumReached received.label) :: prepared ∧
            request = requestOf table findings ∧
            Registers listing report received step prepared table findings time) ∧
    (∀ summary, step.result = .ok (some summary) →
      step.transcript.any Exchange.isAppend = true) ∧
    (∀ partition cause,
      firstFailing listing received.options received.pendingList = some partition →
      listing (joinPath received.options.location partition) = .error cause →
        (∀ table, (⟨.lookup report.table, .ok table⟩ : Exchange) ∈ step.transcript →
          step.result = .error (.listing partition cause) ∧
            step.transcript.any Exchange.isPhase = false) ∧
        ∀ limit scanning outcome, Relation.ReflTransGen
            (Scanning.Next listing received.options limit) (.start received.pendingList) scanning →
          Scanning.Ends received.options report.fileMark scanning outcome →
            outcome = .error (.listingFailed partition cause)) ∧
    ∀ limit scanning, Relation.ReflTransGen
        (Scanning.Next listing received.options limit) (.start received.pendingList) scanning →
      (0 < limit → ∃ last outcome, Relation.ReflTransGen
        (Scanning.Next listing received.options limit) scanning last ∧
          Scanning.Ends received.options report.fileMark last outcome) ∧
      ∀ outcome, Scanning.Ends received.options report.fileMark scanning outcome →
        ∃ transcript, ListedBy listing transcript ∧
          Yields (Attempt.scanAll services.listing received.options report.fileMark
            received.pendingList) transcript outcome := by
  have hlisted (limit : Nat) (scanning : Scanning)
      (outcome : Except Attempt (List PartitionFiles))
      (hscanning : Relation.ReflTransGen (Scanning.Next listing received.options limit)
        (.start received.pendingList) scanning)
      (hends : Scanning.Ends received.options report.fileMark scanning outcome) :
      ∃ transcript, ListedBy listing transcript ∧ Attempt.Listed received.options
        report.fileMark received.pendingList transcript outcome := by
    obtain ⟨hsound, hpartitions⟩ := Scanning.preserves hscanning
    exact hpartitions ▸ hends.listed hsound
  refine ⟨fun front request keep mode accepted back hsplit ↦
    h.registers hevent hreceive hlisting hsplit, fun summary hsummary ↦
    h.any_isAppend hevent hreceive hsummary, fun partition cause hfirst hcause ↦
    ⟨fun table hlookup ↦ ?_, fun limit scanning outcome hscanning hends ↦ ?_⟩,
    fun limit scanning hscanning ↦ ⟨fun hlimit ↦ ?_, fun outcome hends ↦ ?_⟩⟩
  · exact h.of_firstFailing hevent hreceive hlisting hlookup hfirst hcause
  · obtain ⟨transcript, hanswers, hturn⟩ := hlisted limit scanning outcome hscanning hends
    exact hturn.of_firstFailing hanswers hfirst hcause
  · exact Scanning.exists_ends hlimit _ scanning
  · obtain ⟨transcript, hanswers, hturn⟩ := hlisted limit scanning outcome hscanning hends
    exact ⟨transcript, hanswers, hturn.yields⟩

/-- Two directories that can be listed, one of them without entries, and others that cannot. -/
def twoDirectories (directory : String) : Except StorageError (List Entry) :=
  if directory = "/orders/a" then
    .ok [.file "/orders/a/t0-1.inprogress" 3, .dir "/orders/a/t0", .file "/orders/a/t0-0" 7]
  else if directory = "/orders/b" then .ok []
  else .error (.directoryMissing directory)

/-- The answers of a catalog that refuses nothing and of a listing. -/
def answersOf (listing : String → Except StorageError (List Entry)) :
    (call : Call) → call.Answer
  | .list directory => listing directory
  | call => Call.granted ⟨"t1", "orders", "/orders", ""⟩ [] (.ofNumber 0) call

/-- The only writer reports partitions. -/
def scanReport (partitions : List String) : Report :=
  ⟨5, 0, 1, "orders", "t0", .ofList partitions⟩

/-- The step of that report, with those directories. -/
def scanStep (partitions : List String) : Step :=
  .of (answersOf twoDirectories)
    ((Coordinator.new "orders" (.ofLocation "/orders")).start .empty)
    (.record (scanReport partitions))

theorem one_task_ne_zero : (1 : UInt32) ≠ 0 := by
  decide

/-- The coordinator that has taken note of that report. -/
def scanReceived (partitions : List String) : Coordinator :=
  { (scanStep partitions).before with
    pending := some (Pending.empty.observeAll (SortedSet.ofList partitions).elements)
    quorum := some ⟨1, one_task_ne_zero, .empty⟩ }

theorem receive_scanReport (partitions : List String) :
    (scanStep partitions).before.receive (scanReport partitions) =
      .ok (scanReceived partitions, true) := rfl

theorem listedBy_scanStep (partitions : List String) :
    ListedBy twoDirectories (scanStep partitions).transcript := by
  intro directory answer hmem
  exact Step.answer_of_mem hmem

theorem scanned_files_are_registered_twice :
    (scanStep ["a", "b"]).result =
        .ok (some ⟨5, "t1", ["a", "b"], [.ofNumber 0, .ofNumber 0], 1⟩) ∧
      (scanStep ["a", "b"]).transcript.any Exchange.isAppend = true ∧
      (scanStep ["a", "c", "d"]).result =
        .error (.listing "c" (.directoryMissing "/orders/c")) := by
  have hcommitted : (scanStep ["a", "b"]).result =
      .ok (some ⟨5, "t1", ["a", "b"], [.ofNumber 0, .ofNumber 0], 1⟩) := by decide +kernel
  have hfirst : firstFailing twoDirectories (scanReceived ["a", "c", "d"]).options
      (scanReceived ["a", "c", "d"]).pendingList = some "c" := by decide +kernel
  have hlookup : (⟨.lookup "orders", .ok ⟨"t1", "orders", "/orders", ""⟩⟩ : Exchange) ∈
      (scanStep ["a", "c", "d"]).transcript :=
    List.mem_cons_of_mem _ List.mem_cons_self
  obtain ⟨-, hsummary, -, -⟩ := scanned_files_are_registered (Step.valid_of _ _ _) rfl
    (receive_scanReport ["a", "b"]) (listedBy_scanStep ["a", "b"])
  obtain ⟨-, -, hfailing, -⟩ := scanned_files_are_registered (Step.valid_of _ _ _) rfl
    (receive_scanReport ["a", "c", "d"]) (listedBy_scanStep ["a", "c", "d"])
  have hcause : twoDirectories (joinPath (scanReceived ["a", "c", "d"]).options.location "c") =
      .error (.directoryMissing "/orders/c") := by decide +kernel
  exact ⟨hcommitted, hsummary _ hcommitted, ((hfailing "c" _ hfirst hcause).1 _ hlookup).1⟩

end CommitCoordinator
