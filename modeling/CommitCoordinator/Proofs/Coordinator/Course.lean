import CommitCoordinator.Proofs.Dialogue.Handle

/-!
# The course of an attempt

The transcripts of an attempt to commit fall into six kinds, one for each way in which it may end.
The lookup comes first; the partitions are listed in order and each one listed gets a new
snapshot; the request to append is made once all have been listed, and the manifests are stored
once the request has been accepted. Both phases send the payload assembled from the same findings.
-/

namespace CommitCoordinator

open Storage Dialogue

/-- A partition whose directory was listed, with the entries found and the snapshot drawn. -/
structure Finding where
  partition : String
  entries : List Entry
  snapshot : Uuid

namespace Finding

variable (options : SinkOptions)

/-- Listing the directory of the partition and drawing its snapshot. -/
def exchanges (finding : Finding) : List Exchange :=
  [⟨.list (joinPath options.location finding.partition), .ok finding.entries⟩,
    ⟨.freshId, finding.snapshot⟩]

/-- The share of the payload that belongs to the partition. -/
def toPart (fileMark : String) (finding : Finding) : PartitionFiles :=
  ⟨finding.partition, finding.snapshot, taskFiles options.openMark fileMark finding.entries⟩

end Finding

/-- The payload that an attempt assembles from its findings. -/
def payloadOf (options : SinkOptions) (fileMark : String) (table : Table)
    (findings : List Finding) (time : Int64) : Payload :=
  .assemble table (findings.map (·.toPart options fileMark)) options.columns time

namespace Attempt

variable {options : SinkOptions} {report : Report} {partitions : List String}

/-- The transcripts of listing partitions, up to the first that cannot be listed. -/
inductive Listed (options : SinkOptions) (fileMark : String) :
    List String → List Exchange → Except Attempt (List PartitionFiles) → Prop where
  | all (findings : List Finding) :
      Listed options fileMark (findings.map Finding.partition)
        (findings.flatMap (·.exchanges options)) (.ok (findings.map (·.toPart options fileMark)))
  | failed (findings : List Finding) (partition : String) (rest : List String)
      (cause : StorageError) :
      Listed options fileMark (findings.map Finding.partition ++ partition :: rest)
        (findings.flatMap (·.exchanges options) ++
          [⟨.list (joinPath options.location partition), .error cause⟩])
        (.error (.listingFailed partition cause))

theorem Listed.cons {fileMark : String} {partitions : List String} {transcript : List Exchange}
    {result : Except Attempt (List PartitionFiles)} (finding : Finding)
    (h : Listed options fileMark partitions transcript result) :
    Listed options fileMark (finding.partition :: partitions)
      (finding.exchanges options ++ transcript)
      (result.map (finding.toPart options fileMark :: ·)) := by
  cases h with
  | all findings => exact .all (finding :: findings)
  | failed findings partition rest cause =>
    simpa [Except.map] using Listed.failed (finding :: findings) partition rest cause

theorem listed_of_yields_scanAll {fileMark : String} {partitions : List String}
    {transcript : List Exchange} {result : Except Attempt (List PartitionFiles)}
    (h : Yields (scanAll services.listing options fileMark partitions) transcript result) :
    Listed options fileMark partitions transcript result := by
  induction partitions generalizing transcript result with
  | nil =>
    obtain ⟨rfl, rfl⟩ := yields_pure.1 h
    exact .all []
  | cons partition rest ih =>
    simp only [scanAll, scan, services_listing, ask_bind, done_eq, pure_bind, yields_ask] at h
    obtain ⟨listed, after, rfl, h⟩ := h
    cases listed with
    | error cause =>
      obtain ⟨rfl, rfl⟩ := yields_pure.1 h
      exact .failed [] partition rest cause
    | ok entries =>
      simp only [Except.map, freshId_eq, ask_bind, done_eq, pure_bind, yields_ask] at h
      obtain ⟨snapshot, after, rfl, h⟩ := h
      obtain ⟨scanned, tail, parts, rfl, hparts, hresult⟩ := yields_bind.1 h
      obtain ⟨rfl, rfl⟩ := yields_pure.1 hresult
      rw [List.append_nil]
      exact (ih hparts).cons ⟨partition, entries, snapshot⟩

/-- The two phases of an attempt whose payload has been assembled. -/
inductive Phases (payload : Payload) : List Exchange → Attempt → Prop where
  | appendFailed (cause : CatalogError) :
      Phases payload [⟨.append payload.request true .append, .error cause⟩] (.appendFailed cause)
  | rejected : Phases payload [⟨.append payload.request true .append, .ok false⟩] .rejected
  | insertFailed (cause : CatalogError) :
      Phases payload [⟨.append payload.request true .append, .ok true⟩,
        ⟨.insert payload.manifests, .error cause⟩] (.insertFailed cause)
  | committed :
      Phases payload [⟨.append payload.request true .append, .ok true⟩,
        ⟨.insert payload.manifests, .ok ()⟩] (.committed payload)

theorem phases_of_yields_send {payload : Payload} {transcript : List Exchange} {attempt : Attempt}
    (h : Yields (send services.catalog payload) transcript attempt) :
    Phases payload transcript attempt := by
  simp only [send, services_append, ask_bind, done_eq, pure_bind, yields_ask] at h
  obtain ⟨accepted, after, rfl, h⟩ := h
  rcases accepted with cause | _ | _
  · obtain ⟨rfl, rfl⟩ := yields_pure.1 h
    exact .appendFailed cause
  · obtain ⟨rfl, rfl⟩ := yields_pure.1 h
    exact .rejected
  · simp only [services_insert, ask_bind, done_eq, pure_bind, yields_ask] at h
    obtain ⟨inserted, after, rfl, h⟩ := h
    rcases inserted with cause | _
    · obtain ⟨rfl, rfl⟩ := yields_pure.1 h
      exact .insertFailed cause
    · obtain ⟨rfl, rfl⟩ := yields_pure.1 h
      exact .committed

/-- The transcripts of an attempt to commit partitions on behalf of a report. -/
inductive Course (options : SinkOptions) (report : Report) (partitions : List String) :
    List Exchange → Attempt → Prop where
  | lookupFailed (cause : CatalogError) :
      Course options report partitions [⟨.lookup report.table, .error cause⟩]
        (.lookupFailed cause)
  | listingFailed (table : Table) (findings : List Finding) (partition : String)
      (rest : List String) (cause : StorageError)
      (hpartitions : partitions = findings.map Finding.partition ++ partition :: rest) :
      Course options report partitions
        (⟨.lookup report.table, .ok table⟩ :: (findings.flatMap (·.exchanges options) ++
          [⟨.list (joinPath options.location partition), .error cause⟩]))
        (.listingFailed partition cause)
  | sent (table : Table) (findings : List Finding) (time : Int64) {phases : List Exchange}
      {attempt : Attempt} (hpartitions : partitions = findings.map Finding.partition)
      (hphases : Phases (payloadOf options report.fileMark table findings time) phases attempt) :
      Course options report partitions
        (⟨.lookup report.table, .ok table⟩ :: (findings.flatMap (·.exchanges options) ++
          ⟨.currentTime, time⟩ :: phases))
        attempt

theorem course_of_yields_run {transcript : List Exchange} {attempt : Attempt}
    (h : Yields (run services options report partitions) transcript attempt) :
    Course options report partitions transcript attempt := by
  obtain ⟨prepared, sending, result, rfl, hprepare, hsend⟩ := yields_bind.1 h
  simp only [prepare, services_lookup, ask_bind, done_eq, pure_bind, yields_ask] at hprepare
  obtain ⟨found, after, rfl, hprepare⟩ := hprepare
  cases found with
  | error cause =>
    obtain ⟨rfl, rfl⟩ := yields_pure.1 hprepare
    obtain ⟨rfl, rfl⟩ := yields_pure.1 hsend
    exact .lookupFailed cause
  | ok table =>
    obtain ⟨scanning, assembling, scanned, rfl, hscan, hassemble⟩ := yields_bind.1 hprepare
    cases listed_of_yields_scanAll hscan with
    | failed findings partition rest cause =>
      obtain ⟨rfl, rfl⟩ := yields_pure.1 hassemble
      obtain ⟨rfl, rfl⟩ := yields_pure.1 hsend
      simpa using Course.listingFailed table findings partition rest cause rfl
    | all findings =>
      simp only [currentTime_eq, ask_bind, done_eq, pure_bind, yields_ask] at hassemble
      obtain ⟨time, after, rfl, hassemble⟩ := hassemble
      obtain ⟨rfl, rfl⟩ := yields_pure.1 hassemble
      simpa using Course.sent table findings time rfl (phases_of_yields_send hsend)

end Attempt

/-! ## What the answers tell -/

/-- A request to append that was accepted. -/
def Exchange.isAccepted : Exchange → Bool
  | ⟨.append _ _ _, .ok accepted⟩ => accepted
  | _ => false

/-- A lookup, a listing or a request to append that stands in the way of a commit. -/
def Exchange.isObstacle : Exchange → Bool
  | ⟨.lookup _, .error _⟩ => true
  | ⟨.list _, .error _⟩ => true
  | ⟨.append _ _ _, .error _⟩ => true
  | ⟨.append _ _ _, .ok false⟩ => true
  | _ => false

theorem any_flatMap_exchanges (test : Exchange → Bool) (options : SinkOptions)
    (hlist : ∀ directory entries, test ⟨.list directory, .ok entries⟩ = false)
    (hfresh : ∀ snapshot, test ⟨.freshId, snapshot⟩ = false) (findings : List Finding) :
    (findings.flatMap (·.exchanges options)).any test = false := by
  rw [List.any_flatMap, List.any_eq_false]
  intro finding _
  simp [Finding.exchanges, hlist, hfresh]

theorem any_map_emitted {test : Exchange → Bool} (h : ∀ event, test (emitted event) = false)
    (events : List MetricEvent) : (events.map emitted).any test = false := by
  rw [List.any_map, List.any_eq_false]
  intro event _
  simp [h event]

namespace Attempt.Course

variable {options : SinkOptions} {report : Report} {partitions : List String}
  {transcript : List Exchange} {attempt : Attempt}

theorem any_isAccepted (h : Course options report partitions transcript attempt) :
    transcript.any Exchange.isAccepted = attempt.isAppended := by
  have hfindings := any_flatMap_exchanges Exchange.isAccepted options
    (fun _ _ ↦ rfl) (fun _ ↦ rfl)
  cases h with
  | lookupFailed cause => rfl
  | listingFailed table findings partition rest cause =>
    simp [hfindings, Exchange.isAccepted, isAppended]
  | sent table findings time hpartitions hphases =>
    cases hphases <;> simp [hfindings, Exchange.isAccepted, isAppended]

theorem any_isObstacle (h : Course options report partitions transcript attempt) :
    transcript.any Exchange.isObstacle = !attempt.isAppended := by
  have hfindings := any_flatMap_exchanges Exchange.isObstacle options
    (fun _ _ ↦ rfl) (fun _ ↦ rfl)
  cases h with
  | lookupFailed cause => rfl
  | listingFailed table findings partition rest cause =>
    simp [hfindings, Exchange.isObstacle, isAppended]
  | sent table findings time hpartitions hphases =>
    cases hphases <;> simp [hfindings, Exchange.isObstacle, isAppended]

end Attempt.Course

end CommitCoordinator
