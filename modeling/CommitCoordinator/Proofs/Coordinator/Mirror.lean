import CommitCoordinator.Proofs.Catalog.Share

/-!
# One coordinator in two surroundings

A coordinator may do its work beside others or alone. If it finds the same table and the same files
in both surroundings, then what succeeds in one of them succeeds in the other, unless something
there fails. It ends as the same coordinator, and what it leaves in the catalogs is alike.
-/

namespace CommitCoordinator

open Storage Dialogue

namespace Exchange

/-- Whether a call explores what the catalog and the store do not decide: the files of a directory,
or the identifier that is drawn. -/
def isSurvey : Exchange → Bool
  | ⟨.list _, _⟩ => true
  | ⟨.freshId, _⟩ => true
  | _ => false

/-- Whether the catalog or the store could not do what it was asked for. A table that is not there
is no failure. -/
def isFailure : Exchange → Bool
  | ⟨.lookup _, .error (.tableNotFound _)⟩ => false
  | ⟨.lookup _, .error _⟩ => true
  | ⟨.append _ _ _, .error _⟩ => true
  | ⟨.insert _, .error _⟩ => true
  | ⟨.load, .error _⟩ => true
  | ⟨.store _, .error _⟩ => true
  | _ => false

end Exchange

/-- The exchanges that explore directories and draw identifiers. -/
def surveys (transcript : List Exchange) : List Exchange :=
  transcript.filter Exchange.isSurvey

theorem surveys_append (front back : List Exchange) :
    surveys (front ++ back) = surveys front ++ surveys back :=
  List.filter_append _ _

theorem surveys_map_emitted (events : List MetricEvent) : surveys (events.map emitted) = [] := by
  rw [surveys, List.filter_map, List.map_eq_nil_iff, List.filter_eq_nil_iff]
  rintro event - ⟨⟩

theorem surveys_findings (options : SinkOptions) (findings : List Finding) :
    surveys (findings.flatMap (·.exchanges options)) = findings.flatMap (·.exchanges options) := by
  refine List.filter_eq_self.2 fun exchange hexchange ↦ ?_
  obtain ⟨finding, -, hmem⟩ := List.mem_flatMap.1 hexchange
  rcases List.mem_pair.1 hmem with rfl | rfl <;> rfl

/-! ## Findings that are alike -/

variable {R : Uuid → Uuid → Prop}

/-- The same files of the same partition, with snapshots that are related. -/
structure Finding.Alike (R : Uuid → Uuid → Prop) (finding other : Finding) : Prop where
  partition : finding.partition = other.partition
  entries : finding.entries = other.entries
  snapshot : R finding.snapshot other.snapshot

section Findings

variable {options : SinkOptions} {rest rest' : List Exchange}

/-- Surroundings that answer alike lead to findings that are alike. -/
theorem findings_alike {findings others : List Finding}
    (hanswers : Concordant R (findings.flatMap (·.exchanges options) ++ rest)
      (others.flatMap (·.exchanges options) ++ rest'))
    (hpartitions : findings.map Finding.partition = others.map Finding.partition) :
    List.Forall₂ (Finding.Alike R) findings others ∧ Concordant R rest rest' := by
  induction findings generalizing others with
  | nil =>
    obtain rfl := List.map_eq_nil_iff.1 hpartitions.symm
    exact ⟨.nil, hanswers⟩
  | cons finding findings ih =>
    cases others with
    | nil => cases hpartitions
    | cons other others =>
      obtain ⟨hpartition, hothers⟩ := List.cons.inj hpartitions
      obtain ⟨partition, entries, snapshot⟩ := finding
      obtain ⟨partition', entries', snapshot'⟩ := other
      obtain rfl : partition = partition' := hpartition
      obtain ⟨hentries, hanswers⟩ := hanswers (.list _)
      obtain ⟨hsnapshot, hanswers⟩ := hanswers .freshId
      obtain ⟨halike, hrest⟩ := ih hanswers hothers
      exact ⟨.cons ⟨rfl, Except.ok.inj hentries, hsnapshot⟩ halike, hrest⟩

/-- A listing that succeeds in one of two concordant surroundings does not fail in the other. -/
theorem not_failed_of_concordant {findings others : List Finding} {partition : String}
    {more : List String} {cause : StorageError}
    (hanswers : Concordant R (findings.flatMap (·.exchanges options) ++ rest)
      (others.flatMap (·.exchanges options) ++
        ⟨.list (joinPath options.location partition), .error cause⟩ :: rest'))
    (hpartitions : findings.map Finding.partition =
      others.map Finding.partition ++ partition :: more) : False := by
  induction others generalizing findings with
  | nil =>
    cases findings with
    | nil => cases hpartitions
    | cons finding findings =>
      obtain rfl : finding.partition = partition := (List.cons.inj hpartitions).1
      obtain ⟨hentries, -⟩ := hanswers (.list _)
      cases hentries
  | cons other others ih =>
    cases findings with
    | nil => cases hpartitions
    | cons finding findings =>
      obtain ⟨hpartition, hothers⟩ := List.cons.inj hpartitions
      obtain ⟨partition, entries, snapshot⟩ := finding
      obtain rfl : partition = other.partition := hpartition
      obtain ⟨-, hanswers⟩ := hanswers (.list _)
      obtain ⟨-, hanswers⟩ := hanswers .freshId
      exact ih hanswers hothers

theorem alike_payloadOf {findings others : List Finding}
    (h : List.Forall₂ (Finding.Alike R) findings others) (options : SinkOptions)
    (fileMark : String) (table : Table) (time time' : Int64) :
    (payloadOf options fileMark table findings time).Alike R
      (payloadOf options fileMark table others time') := by
  refine Payload.alike_assemble ?_ table options.columns time time'
  rw [List.forall₂_map_left_iff, List.forall₂_map_right_iff]
  refine h.imp fun finding other hfinding ↦ ⟨hfinding.partition, hfinding.snapshot, ?_⟩
  exact congrArg (taskFiles options.openMark fileMark) hfinding.entries

end Findings

/-! ## Attempts -/

theorem drawn_findings (options : SinkOptions) (findings : List Finding) :
    (findings.flatMap (·.exchanges options)).flatMap Exchange.drawn =
      findings.map Finding.snapshot := by
  rw [List.flatMap_assoc]
  exact List.flatMap_pure_eq_map Finding.snapshot findings

theorem manifests_payloadOf (options : SinkOptions) (fileMark : String) (table : Table)
    (findings : List Finding) (time : Int64) :
    (payloadOf options fileMark table findings time).snapshots = findings.map Finding.snapshot := by
  simp [payloadOf, Payload.assemble, Payload.snapshots, PartitionFiles.toManifest, Finding.toPart,
    Manifest.addFiles, Manifest.empty, Function.comp_def]

namespace Attempt

/-- The exchanges of an attempt that comes to its end. -/
def fulfilled (options : SinkOptions) (report : Report) (table : Table) (findings : List Finding)
    (time : Int64) : List Exchange :=
  let payload := payloadOf options report.fileMark table findings time
  ⟨.lookup report.table, .ok table⟩ :: (findings.flatMap (·.exchanges options) ++
    [⟨.currentTime, time⟩, ⟨.append payload.request true .append, .ok true⟩,
      ⟨.insert payload.manifests, .ok ()⟩])

section Fulfilled

variable {options : SinkOptions} {report : Report} {table : Table} {findings : List Finding}
  {time : Int64}

theorem surveys_fulfilled :
    surveys (fulfilled options report table findings time) =
      findings.flatMap (·.exchanges options) := by
  have hsplit : surveys (fulfilled options report table findings time) =
      surveys (findings.flatMap (·.exchanges options)) ++ [] := surveys_append _ _
  rw [hsplit, List.append_nil, surveys_findings]

theorem drawn_fulfilled :
    (fulfilled options report table findings time).flatMap Exchange.drawn =
      findings.map Finding.snapshot := by
  have hsplit : (fulfilled options report table findings time).flatMap Exchange.drawn =
      (findings.flatMap (·.exchanges options)).flatMap Exchange.drawn ++ [] :=
    List.flatMap_append
  rw [hsplit, List.append_nil, drawn_findings]

/-- An attempt that ends with a commit has gone all the way. -/
theorem Course.fulfilled_of_committed {partitions : List String} {transcript : List Exchange}
    {payload : Payload} (h : Course options report partitions transcript (.committed payload)) :
    ∃ table findings time, partitions = findings.map Finding.partition ∧
      payload = payloadOf options report.fileMark table findings time ∧
      transcript = fulfilled options report table findings time := by
  cases h with
  | sent table findings time hpartitions hphases =>
    cases hphases
    exact ⟨table, findings, time, hpartitions, rfl, rfl⟩

/-- What a catalog goes through in such an attempt. -/
theorem commits_of_fulfilled {before after : Catalog}
    (h : Along Catalog.Grants before (fulfilled options report table findings time) after) :
    before.lookup report.table = .ok table ∧
      before.Commits (payloadOf options report.fileMark table findings time) after := by
  obtain ⟨_, ⟨hlookup, rfl⟩, hrest⟩ := h
  obtain ⟨listed, hlisted, _, rfl, appended, ⟨haccepted, rfl⟩, _, ⟨-, hinserted⟩, rfl⟩ :=
    along_append.1 hrest
  obtain rfl := Catalog.eq_of_along_elsewhere hlisted fun exchange hexchange ↦ by
    obtain ⟨finding, -, hmem⟩ := List.mem_flatMap.1 hexchange
    rcases List.mem_pair.1 hmem with rfl | rfl <;> rfl
  refine ⟨hlookup.symm, ?_⟩
  obtain ⟨next, hnext⟩ := Option.isSome_iff_exists.1 (Except.ok.inj haccepted).symm
  refine ⟨next, hnext, ?_⟩
  rw [hinserted, hnext]
  rfl

/-- A request with new snapshots for a table that was found is accepted. -/
theorem accepted_of_lacks {catalog : Catalog} (hlookup : catalog.lookup report.table = .ok table)
    (hlacks : catalog.Lacks (findings.map Finding.snapshot))
    (hnodup : (findings.map Finding.partition).Nodup) :
    ∃ next, catalog.append? (payloadOf options report.fileMark table findings time).request true
      .append = some next := by
  have hknows : catalog.knowsTableId table.id = true := by
    unfold Catalog.lookup at hlookup
    split at hlookup
    · next htable =>
      cases hlookup
      exact Catalog.knowsTableId_iff.2 ⟨table, Catalog.mem_values_of_table? htable, rfl⟩
    · cases hlookup
  let payload := payloadOf options report.fileMark table findings time
  have hcoherent : payload.request.Coherent := coherent_payloadOf hnodup
  have hadmits : catalog.admits payload.request = true :=
    Catalog.admits_of_coherent hcoherent hknows fun id hid ↦ by
      rw [snapshots_payloadOf] at hid
      exact (hlacks id hid).1
  refine Option.isSome_iff_exists.1 (Option.ne_none_iff_isSome.1 fun hnone ↦ ?_)
  rw [Catalog.append?_eq_none, hadmits] at hnone
  cases hnone

/-- An attempt that finds what another one found comes to its end as that one did, unless the
catalog fails. -/
theorem Course.fulfilled_of_concordant {transcript rest rest' : List Exchange} {attempt : Attempt}
    {before after : Catalog}
    (h : Course options report (findings.map Finding.partition) transcript attempt)
    (halong : Along Catalog.Grants before transcript after)
    (hlookup : before.lookup report.table = .ok table)
    (hlacks : before.Lacks (transcript.flatMap Exchange.drawn))
    (hnodup : (findings.map Finding.partition).Nodup)
    (hfailure : ∀ exchange ∈ transcript, exchange.isFailure = false)
    (hanswers : Concordant R (findings.flatMap (·.exchanges options) ++ rest)
      (surveys transcript ++ rest')) :
    ∃ others time, attempt = .committed (payloadOf options report.fileMark table others time) ∧
      transcript = fulfilled options report table others time ∧
      List.Forall₂ (Finding.Alike R) findings others ∧ Concordant R rest rest' := by
  cases h with
  | lookupFailed cause =>
    obtain ⟨_, ⟨hfound, -⟩, -⟩ := halong
    cases hfound.trans hlookup
  | listingFailed found others partition more cause hpartitions =>
    have hsurveys : surveys (⟨.lookup report.table, .ok found⟩ ::
        (others.flatMap (·.exchanges options) ++
          [⟨.list (joinPath options.location partition), .error cause⟩])) =
        surveys (others.flatMap (·.exchanges options)) ++
          [⟨.list (joinPath options.location partition), .error cause⟩] := surveys_append _ _
    rw [hsurveys, surveys_findings, List.append_assoc] at hanswers
    exact (not_failed_of_concordant hanswers hpartitions).elim
  | @sent found others time' phases _ hpartitions hphases =>
    obtain ⟨_, ⟨hfound, rfl⟩, hrest⟩ := halong
    obtain rfl : found = table := Except.ok.inj (hfound.trans hlookup)
    obtain ⟨listed, hlisted, _, rfl, hsent⟩ := along_append.1 hrest
    obtain rfl := Catalog.eq_of_along_elsewhere hlisted fun exchange hexchange ↦ by
      obtain ⟨finding, -, hmem⟩ := List.mem_flatMap.1 hexchange
      rcases List.mem_pair.1 hmem with rfl | rfl <;> rfl
    have hmem {exchange : Exchange} (hexchange : exchange ∈ phases) :=
      hfailure exchange (List.mem_cons_of_mem _ (List.mem_append_right _
        (List.mem_cons_of_mem _ hexchange)))
    cases hphases with
    | appendFailed cause => cases hmem List.mem_cons_self
    | insertFailed cause => cases hmem (List.mem_cons_of_mem _ List.mem_cons_self)
    | rejected =>
      obtain ⟨_, ⟨hrefused, -⟩, -⟩ := hsent
      rw [List.flatMap_cons, List.flatMap_append, drawn_findings] at hlacks
      obtain ⟨next, hnext⟩ : ∃ next, Catalog.append? _
          (payloadOf options report.fileMark _ others time').request true .append = some next :=
        accepted_of_lacks hlookup
          (hlacks.mono fun id hid ↦ List.mem_append_right _ (List.mem_append_left _ hid))
          (hpartitions ▸ hnodup)
      rw [hnext] at hrefused
      cases hrefused
    | committed =>
      change Concordant R _ (surveys (fulfilled options report found others time') ++ _) at hanswers
      rw [surveys_fulfilled] at hanswers
      obtain ⟨halike, hrest⟩ := findings_alike hanswers hpartitions
      exact ⟨others, time', rfl, rfl, halike, hrest⟩

end Fulfilled

end Attempt

/-! ## Reports -/

theorem along_map_emitted {before after : Catalog} {events : List MetricEvent}
    (h : Along Catalog.Grants before (events.map emitted) after) : after = before :=
  Catalog.eq_of_along_elsewhere h fun exchange hexchange ↦ by
    obtain ⟨event, -, rfl⟩ := List.mem_map.1 hexchange
    rfl

theorem along_emitted {before after : Catalog} {event : MetricEvent}
    (h : Along Catalog.Grants before [emitted event] after) : after = before :=
  along_map_emitted (show Along Catalog.Grants before ([event].map emitted) after from h)

theorem drawn_map_emitted (events : List MetricEvent) :
    (events.map emitted).flatMap Exchange.drawn = [] := by
  rw [List.flatMap_map]
  exact List.flatMap_eq_nil_iff.2 fun event _ ↦ rfl

/-- The metrics around an attempt find nothing. -/
theorem surveys_between_emitted (first : MetricEvent) (exchanges : List Exchange)
    (events : List MetricEvent) :
    surveys (emitted first :: (exchanges ++ events.map emitted)) = surveys exchanges := by
  have hsplit : surveys (emitted first :: (exchanges ++ events.map emitted)) =
      surveys exchanges ++ surveys (events.map emitted) := surveys_append _ _
  rw [hsplit, surveys_map_emitted, List.append_nil]

/-- The metrics around an attempt draw nothing. -/
theorem drawn_between_emitted (first : MetricEvent) (exchanges : List Exchange)
    (events : List MetricEvent) :
    (emitted first :: (exchanges ++ events.map emitted)).flatMap Exchange.drawn =
      exchanges.flatMap Exchange.drawn := by
  have hsplit : (emitted first :: (exchanges ++ events.map emitted)).flatMap Exchange.drawn =
      exchanges.flatMap Exchange.drawn ++ (events.map emitted).flatMap Exchange.drawn :=
    List.flatMap_append
  rw [hsplit, drawn_map_emitted, List.append_nil]

namespace Coordinator

variable {before after received : Coordinator} {report : Report} {transcript : List Exchange}
  {table : Table} {findings : List Finding} {time : Int64}

/-- The exchanges of a commit on behalf of a report that completes its checkpoint. -/
def commitment (received : Coordinator) (report : Report) (table : Table)
    (findings : List Finding) (time : Int64) : List Exchange :=
  let attempt := Attempt.committed
    (payloadOf received.options report.fileMark table findings time)
  emitted (.quorumReached received.label) ::
    (Attempt.fulfilled received.options report table findings time ++
      (attempt.events received.label).map emitted)

theorem surveys_commitment : surveys (received.commitment report table findings time) =
    findings.flatMap (·.exchanges received.options) :=
  (surveys_between_emitted _ _ _).trans Attempt.surveys_fulfilled

theorem drawn_commitment : (received.commitment report table findings time).flatMap Exchange.drawn =
    findings.map Finding.snapshot :=
  (drawn_between_emitted _ _ _).trans Attempt.drawn_fulfilled

theorem commits_of_commitment {catalog next : Catalog}
    (h : Along Catalog.Grants catalog (received.commitment report table findings time) next) :
    catalog.lookup report.table = .ok table ∧
      catalog.Commits (payloadOf received.options report.fileMark table findings time) next := by
  obtain ⟨_, rfl, hrest⟩ := h
  obtain ⟨committed, hcommitted, hevents⟩ := along_append.1 hrest
  obtain rfl := along_map_emitted hevents
  exact Attempt.commits_of_fulfilled hcommitted

theorem isFailure_of_mem_commitment {exchange : Exchange}
    (h : exchange ∈ received.commitment report table findings time) :
    exchange.isFailure = false := by
  rcases List.mem_cons.1 h with rfl | h
  · rfl
  · rcases List.mem_append.1 h with h | h
    · rcases List.mem_cons.1 h with rfl | h
      · rfl
      · rcases List.mem_append.1 h with h | h
        · obtain ⟨finding, -, hmem⟩ := List.mem_flatMap.1 h
          rcases List.mem_pair.1 hmem with rfl | rfl <;> rfl
        · simp only [List.mem_cons, List.not_mem_nil, or_false] at h
          rcases h with rfl | rfl | rfl <;> rfl
    · obtain ⟨event, -, rfl⟩ := List.mem_map.1 h
      rfl

/-- How a coordinator processes a report without an error. -/
inductive Succeeded (before : Coordinator) (report : Report) :
    List Exchange → Option CommitSummary → Coordinator → Prop where
  | awaited {received : Coordinator} (hreceive : before.receive report = .ok (received, false)) :
      Succeeded before report [] none received
  | idle {received : Coordinator} (hreceive : before.receive report = .ok (received, true))
      (hpending : received.pendingList = []) :
      Succeeded before report [emitted (.quorumReached received.label)] none received.drain.2
  | committed {received : Coordinator} (table : Table) (findings : List Finding) (time : Int64)
      (summary : CommitSummary) (hreceive : before.receive report = .ok (received, true))
      (hpending : received.pendingList ≠ [])
      (hpartitions : received.pendingList = findings.map Finding.partition) :
      Succeeded before report (received.commitment report table findings time) (some summary)
        received.drain.2

variable {summary : Option CommitSummary}

theorem Processed.succeeded (h : before.Processed report transcript (.ok summary) after) :
    before.Succeeded report transcript summary after := by
  generalize hresult : (Except.ok summary : Except CommitError (Option CommitSummary)) = result at h
  cases h with
  | refused hreceive => cases hresult
  | awaited hreceive =>
    cases hresult
    exact .awaited hreceive
  | idle hreceive hpending =>
    cases hresult
    exact .idle hreceive hpending
  | @attempted received exchanges attempt hreceive hpending hcourse =>
    cases attempt with
    | committed payload =>
      cases hresult
      obtain ⟨table, findings, time, hpartitions, rfl, rfl⟩ := hcourse.fulfilled_of_committed
      exact .committed table findings time _ hreceive hpending hpartitions
    | _ => cases hresult

namespace Succeeded

/-- Nothing has failed where a report succeeded. -/
theorem isFailure_eq_false (h : before.Succeeded report transcript summary after) :
    ∀ exchange ∈ transcript, exchange.isFailure = false := by
  cases h with
  | awaited hreceive => exact fun _ hexchange ↦ absurd hexchange List.not_mem_nil
  | idle hreceive hpending =>
    intro exchange hexchange
    obtain rfl := List.mem_singleton.1 hexchange
    rfl
  | committed table findings time summary hreceive hpending hpartitions =>
    exact fun _ hexchange ↦ isFailure_of_mem_commitment hexchange

/-- A report about one table leaves the shares of the other tables alone. -/
theorem spares (h : before.Succeeded report transcript summary after)
    {catalog next other : Catalog} (halong : Along Catalog.Grants catalog transcript next)
    (hlookup : catalog.lookup report.table = .ok table)
    (hnodup : (transcript.flatMap Exchange.drawn).Nodup)
    (hlacks : catalog.Lacks (transcript.flatMap Exchange.drawn)) {tableId : String}
    (htable : tableId ≠ table.id) (hshare : catalog.ShareAlike R tableId other) :
    next.ShareAlike R tableId other := by
  cases h with
  | awaited hreceive => exact (show next = catalog from halong) ▸ hshare
  | idle hreceive hpending => exact along_emitted halong ▸ hshare
  | committed found findings time summary hreceive hpending hpartitions =>
    obtain ⟨hfound, hcommits⟩ := commits_of_commitment halong
    obtain rfl : found = table := Except.ok.inj (hfound.symm.trans hlookup)
    rw [drawn_commitment] at hnodup hlacks
    refine hshare.left_of_commits hcommits ?_ ?_ htable ?_
    · rwa [manifests_payloadOf]
    · rwa [manifests_payloadOf]
    · intro manifest hmanifest
      obtain ⟨part, -, rfl⟩ := List.mem_map.1 hmanifest
      exact Ne.symm htable

/-- A report that succeeds beside other coordinators succeeds alone, unless something fails there.
The coordinator ends as the same one, and the share of its table is alike in the catalogs. -/
theorem mirrored (h : before.Succeeded report transcript summary after)
    {transcript' rest rest' : List Exchange} {result : Except CommitError (Option CommitSummary)}
    {after' : Coordinator} (h' : before.Processed report transcript' result after')
    {catalog next catalog' next' : Catalog} (halong : Along Catalog.Grants catalog transcript next)
    (halong' : Along Catalog.Grants catalog' transcript' next')
    (hlookup : catalog.lookup report.table = .ok table)
    (hlookup' : catalog'.lookup report.table = .ok table)
    (hshare : catalog.ShareAlike R table.id catalog')
    (hnodup : (transcript.flatMap Exchange.drawn).Nodup)
    (hlacks : catalog.Lacks (transcript.flatMap Exchange.drawn))
    (hnodup' : (transcript'.flatMap Exchange.drawn).Nodup)
    (hlacks' : catalog'.Lacks (transcript'.flatMap Exchange.drawn))
    (hfailure : ∀ exchange ∈ transcript', exchange.isFailure = false)
    (hanswers : Concordant R (surveys transcript ++ rest) (surveys transcript' ++ rest')) :
    (∃ summary', result = .ok summary' ∧ summary'.isSome = summary.isSome) ∧ after' = after ∧
      next.ShareAlike R table.id next' ∧ Concordant R rest rest' := by
  cases h with
  | awaited hreceive =>
    obtain ⟨rfl, rfl, rfl⟩ := h'.of_awaited hreceive
    obtain rfl : next = catalog := halong
    obtain rfl : next' = catalog' := halong'
    exact ⟨⟨none, rfl, rfl⟩, rfl, hshare, hanswers⟩
  | idle hreceive hpending =>
    obtain ⟨-, rfl, rfl, rfl⟩ | ⟨hsome, -⟩ := h'.of_completed hreceive
    · obtain rfl := along_emitted halong
      obtain rfl := along_emitted halong'
      exact ⟨⟨none, rfl, rfl⟩, rfl, hshare, hanswers⟩
    · exact absurd hpending hsome
  | @committed received found findings time summary hreceive hpending hpartitions =>
    obtain ⟨hnone, -⟩ | ⟨-, exchanges, attempt, hcourse, rfl, rfl, rfl⟩ :=
      h'.of_completed hreceive
    · exact absurd hnone hpending
    · obtain ⟨hfound, hcommits⟩ := commits_of_commitment halong
      obtain rfl : found = table := Except.ok.inj (hfound.symm.trans hlookup)
      rw [surveys_commitment, surveys_between_emitted] at hanswers
      rw [drawn_between_emitted] at hnodup' hlacks'
      obtain ⟨_, rfl, hrest⟩ := halong'
      obtain ⟨between, hexchanges, -⟩ := along_append.1 hrest
      have hinner {exchange : Exchange} (hexchange : exchange ∈ exchanges) :=
        hfailure exchange (List.mem_cons_of_mem _ (List.mem_append_left _ hexchange))
      have hnames : (findings.map Finding.partition).Nodup :=
        hpartitions ▸ received.nodup_pendingList
      rw [hpartitions] at hcourse
      obtain ⟨others, time', rfl, rfl, halike, hrest'⟩ := hcourse.fulfilled_of_concordant
        hexchanges hlookup' hlacks' hnames (fun _ ↦ hinner) hanswers
      obtain ⟨-, hcommits'⟩ : _ ∧ Catalog.Commits _
          (payloadOf received.options report.fileMark found others time') next' :=
        commits_of_commitment ⟨_, rfl, hrest⟩
      rw [drawn_commitment] at hnodup hlacks
      rw [Attempt.drawn_fulfilled] at hnodup' hlacks'
      refine ⟨⟨_, rfl, rfl⟩, rfl, ?_, hrest'⟩
      refine hshare.commits (alike_payloadOf halike received.options report.fileMark found time
        time') hcommits ?_ ?_ hcommits' ?_ ?_ <;> rwa [manifests_payloadOf]

end Succeeded

end Coordinator

end CommitCoordinator
