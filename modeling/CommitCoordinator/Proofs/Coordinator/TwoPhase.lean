import CommitCoordinator.Proofs.Collection.Concatenation
import CommitCoordinator.Proofs.Coordinator.Protocol

/-!
# The two phases of a commit

The calls that a coordinator makes to the catalog fall into blocks, one for each report that
completes its checkpoint while partitions are pending. The snapshots are appended only after the
table has been found and all partitions have been listed, and the manifests are stored only after
the catalog has accepted the snapshots.
-/

namespace CommitCoordinator

open Storage Dialogue

namespace Exchange

def isAppend : Exchange → Bool
  | ⟨.append _ _ _, _⟩ => true
  | _ => false

def isInsert : Exchange → Bool
  | ⟨.insert _, _⟩ => true
  | _ => false

end Exchange

/-- The catalog calls on behalf of a report, for partitions that it commits. -/
inductive Block (report : Report) (partitions : List String) : List Exchange → Prop where
  | lookup (found : Except CatalogError Table) :
      Block report partitions [⟨.lookup report.table, found⟩]
  | append (table : Table) (request : AppendRequest) (accepted : Except CatalogError Bool)
      (hpartitions : request.partitions.map PartitionAppend.partition = partitions)
      (haccepted : accepted ≠ .ok true) :
      Block report partitions
        [⟨.lookup report.table, .ok table⟩, ⟨.append request true .append, accepted⟩]
  | insert (table : Table) (request : AppendRequest) (manifests : List Manifest)
      (inserted : Except CatalogError Unit)
      (hpartitions : request.partitions.map PartitionAppend.partition = partitions)
      (haligned : Aligned request manifests) :
      Block report partitions
        [⟨.lookup report.table, .ok table⟩, ⟨.append request true .append, .ok true⟩,
          ⟨.insert manifests, inserted⟩]

/-- Whether the calls on behalf of a report are made in the order of the phases, each only after
those before it have succeeded. -/
structure Gated (report : Report) (received : Coordinator) (transcript : List Exchange) : Prop where
  block : Block report received.pendingList (transcript.filter Exchange.isCatalog)
  append_gate : ∀ front request keep mode accepted back,
    transcript = front ++ ⟨.append request keep mode, accepted⟩ :: back →
      (∃ table, (⟨.lookup report.table, .ok table⟩ : Exchange) ∈ front) ∧
        ∀ partition ∈ received.pendingList, ∃ entries,
          (⟨.list (joinPath received.options.location partition), .ok entries⟩ : Exchange) ∈ front
  insert_gate : ∀ front manifests inserted back,
    transcript = front ++ ⟨.insert manifests, inserted⟩ :: back →
      ∃ request, (⟨.append request true .append, .ok true⟩ : Exchange) ∈ front ∧
        Aligned request manifests

theorem Attempt.Phases.eq_append_or_insert {payload : Payload} {phases : List Exchange}
    {attempt : Attempt} (h : Attempt.Phases payload phases attempt) :
    (∃ accepted, accepted ≠ .ok true ∧
      phases = [⟨.append payload.request true .append, accepted⟩]) ∨
    ∃ inserted, phases = [⟨.append payload.request true .append, .ok true⟩,
      ⟨.insert payload.manifests, inserted⟩] := by
  cases h with
  | appendFailed cause => exact .inl ⟨.error cause, nofun, rfl⟩
  | rejected => exact .inl ⟨.ok false, nofun, rfl⟩
  | insertFailed cause => exact .inr ⟨.error cause, rfl⟩
  | committed => exact .inr ⟨.ok (), rfl⟩

theorem filter_isCatalog_findings (options : SinkOptions) (findings : List Finding) :
    (findings.flatMap (·.exchanges options)).filter Exchange.isCatalog = [] :=
  List.filter_eq_nil_iff.2 <| List.any_eq_false.1 <|
    any_flatMap_exchanges _ options (fun _ _ ↦ rfl) (fun _ ↦ rfl) findings

theorem filter_isCatalog_emitted (events : List MetricEvent) :
    (events.map emitted).filter Exchange.isCatalog = [] :=
  List.filter_eq_nil_iff.2 <| List.any_eq_false.1 <| any_map_emitted (fun _ ↦ rfl) events

variable {report : Report} {received : Coordinator} {transcript : List Exchange}

/-- Calls that only look the table up pass both gates. -/
theorem gated_of_lookup (found : Except CatalogError Table)
    (h : transcript.filter Exchange.isCatalog = [⟨.lookup report.table, found⟩]) :
    Gated report received transcript := by
  have hlookup {exchange : Exchange} (hmem : exchange ∈ transcript)
      (hcatalog : exchange.isCatalog = true) : exchange = ⟨.lookup report.table, found⟩ := by
    rw [← List.mem_singleton, ← h]
    exact List.mem_filter.2 ⟨hmem, hcatalog⟩
  refine ⟨h ▸ .lookup found, ?_, ?_⟩
  · rintro front request keep mode accepted back rfl
    cases hlookup (List.mem_append_right front List.mem_cons_self) rfl
  · rintro front manifests inserted back rfl
    cases hlookup (List.mem_append_right front List.mem_cons_self) rfl

/-- Calls among which only a lookup goes to the catalog, if any at all. -/
theorem any_eq_false_of_filter {exchanges : List Exchange} {test : Exchange → Bool}
    (htest : ∀ exchange : Exchange, test exchange = true → exchange.isCatalog = true)
    (hfilter : (exchanges.filter Exchange.isCatalog).any test = false) :
    exchanges.any test = false := by
  rw [List.any_eq_false] at hfilter ⊢
  intro exchange hmem htrue
  exact hfilter exchange (List.mem_filter.2 ⟨hmem, htest exchange htrue⟩) htrue

theorem Exchange.isCatalog_of_isAppend (exchange : Exchange) (h : exchange.isAppend = true) :
    exchange.isCatalog = true := by
  obtain ⟨call, answer⟩ := exchange
  cases call <;> first | rfl | cases h

theorem Exchange.isCatalog_of_isInsert (exchange : Exchange) (h : exchange.isInsert = true) :
    exchange.isCatalog = true := by
  obtain ⟨call, answer⟩ := exchange
  cases call <;> first | rfl | cases h

/-- Both phases, after calls that found the table and listed all partitions. -/
theorem gated_of_phases {before phases after : List Exchange} {payload : Payload}
    {attempt : Attempt} (table : Table)
    (hbefore : before.filter Exchange.isCatalog = [⟨.lookup report.table, .ok table⟩])
    (hlisted : ∀ partition ∈ received.pendingList, ∃ entries,
      (⟨.list (joinPath received.options.location partition), .ok entries⟩ : Exchange) ∈ before)
    (hnames : payload.request.partitions.map PartitionAppend.partition = received.pendingList)
    (haligned : Aligned payload.request payload.manifests)
    (hphases : Attempt.Phases payload phases attempt)
    (hafter : after.filter Exchange.isCatalog = []) :
    Gated report received (before ++ (phases ++ after)) := by
  have hlookup : (⟨.lookup report.table, .ok table⟩ : Exchange) ∈ before := by
    have hmem : (⟨.lookup report.table, .ok table⟩ : Exchange) ∈
        before.filter Exchange.isCatalog := by
      rw [hbefore]
      exact List.mem_cons_self
    exact (List.mem_filter.1 hmem).1
  have hnoAppend : before.any Exchange.isAppend = false :=
    any_eq_false_of_filter Exchange.isCatalog_of_isAppend (hbefore ▸ rfl)
  have hnoInsert : before.any Exchange.isInsert = false :=
    any_eq_false_of_filter Exchange.isCatalog_of_isInsert (hbefore ▸ rfl)
  have hnoAppend' : after.any Exchange.isAppend = false :=
    any_eq_false_of_filter Exchange.isCatalog_of_isAppend (hafter ▸ rfl)
  have hnoInsert' : after.any Exchange.isInsert = false :=
    any_eq_false_of_filter Exchange.isCatalog_of_isInsert (hafter ▸ rfl)
  rcases hphases.eq_append_or_insert with ⟨accepted, haccepted, rfl⟩ | ⟨inserted, rfl⟩
  · constructor
    · rw [List.filter_append, List.filter_append, hbefore, hafter]
      exact .append table payload.request accepted hnames haccepted
    · intro front request keep mode answer back heq
      obtain ⟨rfl, -, -⟩ := append_cons_inj_of_any hnoAppend hnoAppend' rfl heq
      exact ⟨⟨table, hlookup⟩, hlisted⟩
    · intro front manifests answer back heq
      have hany := congrArg (List.any · Exchange.isInsert) heq
      simp [hnoInsert, hnoInsert', Exchange.isInsert] at hany
  · constructor
    · rw [List.filter_append, List.filter_append, hbefore, hafter]
      exact .insert table payload.request payload.manifests inserted hnames haligned
    · intro front request keep mode answer back heq
      have hback : ((⟨.insert payload.manifests, inserted⟩ : Exchange) :: after).any
          Exchange.isAppend = false := hnoAppend'
      obtain ⟨rfl, -, -⟩ := append_cons_inj_of_any hnoAppend hback rfl heq
      exact ⟨⟨table, hlookup⟩, hlisted⟩
    · intro front manifests answer back heq
      have hfront : (before ++ [(⟨.append payload.request true .append, .ok true⟩ : Exchange)]).any
          Exchange.isInsert = false := by
        rw [List.any_append, hnoInsert]
        rfl
      have hshape : (before ++ [⟨.append payload.request true .append, .ok true⟩]) ++
          ⟨.insert payload.manifests, inserted⟩ :: after =
            front ++ ⟨.insert manifests, answer⟩ :: back := by
        rw [← heq, List.append_assoc]
        rfl
      obtain ⟨rfl, hsame, -⟩ := append_cons_inj_of_any hfront hnoInsert' rfl hshape
      cases hsame
      exact ⟨payload.request, List.mem_append_right _ List.mem_cons_self, haligned⟩

/-- An attempt makes its calls in the order of the phases. -/
theorem Attempt.Course.gated {exchanges : List Exchange} {attempt : Attempt}
    (h : Attempt.Course received.options report received.pendingList exchanges attempt)
    (opening : MetricEvent) (closing : List MetricEvent) :
    Gated report received (emitted opening :: (exchanges ++ closing.map emitted)) := by
  have hfilter : (emitted opening :: (exchanges ++ closing.map emitted)).filter
      Exchange.isCatalog = exchanges.filter Exchange.isCatalog := by
    rw [List.filter_cons_of_neg Bool.false_ne_true, List.filter_append, filter_isCatalog_emitted,
      List.append_nil]
  cases h with
  | lookupFailed cause => exact gated_of_lookup (.error cause) hfilter
  | listingFailed table findings partition rest cause hpartitions =>
    refine gated_of_lookup (.ok table) (hfilter.trans ?_)
    rw [List.filter_cons_of_pos rfl, List.filter_append, filter_isCatalog_findings]
    rfl
  | @sent table findings time phases _ hpartitions hphases =>
    have hshape : emitted opening :: (⟨.lookup report.table, .ok table⟩ ::
          (findings.flatMap (·.exchanges received.options) ++ ⟨.currentTime, time⟩ :: phases) ++
            closing.map emitted) =
        (emitted opening :: ⟨.lookup report.table, .ok table⟩ ::
          (findings.flatMap (·.exchanges received.options) ++ [⟨.currentTime, time⟩])) ++
            (phases ++ closing.map emitted) := by
      simp
    rw [hshape]
    refine gated_of_phases table ?_ (fun partition hpartition ↦ ?_) ?_ (aligned_assemble _ _ _ _)
      hphases (filter_isCatalog_emitted closing)
    · rw [List.filter_cons_of_neg Bool.false_ne_true, List.filter_cons_of_pos rfl,
        List.filter_append, filter_isCatalog_findings]
      rfl
    · rw [hpartitions] at hpartition
      obtain ⟨finding, hfinding, rfl⟩ := List.mem_map.1 hpartition
      have hmem : (⟨.list (joinPath received.options.location finding.partition),
          .ok finding.entries⟩ : Exchange) ∈ findings.flatMap (·.exchanges received.options) :=
        List.mem_flatMap.2 ⟨finding, hfinding, List.mem_cons_self⟩
      exact ⟨finding.entries, List.mem_cons_of_mem _ (List.mem_cons_of_mem _
        (List.mem_append_left _ hmem))⟩
    · rw [hpartitions]
      exact partitions_payloadOf received.options report.fileMark table findings time

/-! ## Blocks of a run -/

namespace Step

/-- The calls of a step that go to the catalog. -/
def calls (step : Step) : List Exchange :=
  step.transcript.filter Exchange.isCatalog

/-- Whether the step's report completes its checkpoint while partitions are pending. -/
def isAttempt (step : Step) : Bool :=
  match step.event with
  | .record report =>
    match step.before.receive report with
    | .ok (received, completed) => completed && !received.pendingList.isEmpty
    | .error _ => false
  | _ => false

/-- Whether the manifests were stored. -/
def isCommitted (step : Step) : Bool :=
  step.transcript.any Exchange.isInserted

theorem Valid.gated {step : Step} (h : step.Valid) {report : Report} {received : Coordinator}
    (hevent : step.event = .record report)
    (hreceive : step.before.receive report = .ok (received, true))
    (hpending : received.pendingList ≠ []) : Gated report received step.transcript := by
  obtain ⟨hidle, -, -, -⟩ | ⟨-, exchanges, attempt, hcourse, htranscript, -, -⟩ :=
    (h.processed hevent).of_completed hreceive
  · exact absurd hidle hpending
  · rw [htranscript]
    exact hcourse.gated _ _

/-- No other step makes a call to the catalog. -/
theorem Valid.calls_eq_nil {step : Step} (h : step.Valid) (hattempt : step.isAttempt = false) :
    step.calls = [] := by
  unfold calls
  unfold isAttempt at hattempt
  cases hevent : step.event with
  | watermark timestamp =>
    rw [(h.observed hevent).1]
    rfl
  | checkpoint checkpoint =>
    obtain ⟨result, hstored, -, -⟩ := h.stored hevent
    generalize step.transcript = transcript at hstored
    cases hstored <;> rfl
  | record report =>
    have hprocessed := h.processed hevent
    simp only [hevent] at hattempt
    generalize step.transcript = transcript, step.result = result, step.after = after
      at hprocessed
    cases hprocessed with
    | @refused cause _ => cases cause <;> rfl
    | awaited _ => rfl
    | idle _ _ => rfl
    | attempted hreceive hpending _ =>
      rw [hreceive] at hattempt
      simp [hpending] at hattempt

end Step

theorem Attempt.Course.any_isInserted {options : SinkOptions} {partitions : List String}
    {exchanges : List Exchange} {attempt : Attempt}
    (h : Attempt.Course options report partitions exchanges attempt) :
    exchanges.any Exchange.isInserted = true ↔
      ∃ summary, Coordinator.resultOf report partitions attempt = .ok (some summary) := by
  have hfindings := any_flatMap_exchanges Exchange.isInserted options (fun _ _ ↦ rfl) (fun _ ↦ rfl)
  cases h with
  | lookupFailed cause => simp [Exchange.isInserted, Coordinator.resultOf]
  | listingFailed table findings partition rest cause =>
    simp [hfindings, Exchange.isInserted, Coordinator.resultOf]
  | sent table findings time hpartitions hphases =>
    cases hphases <;> simp [hfindings, Exchange.isInserted, Coordinator.resultOf]

/-- A report has a summary exactly if its manifests were stored. -/
theorem Step.Valid.summary_iff {step : Step} (h : step.Valid) :
    (∃ summary, step.result = .ok (some summary)) ↔ step.isCommitted = true := by
  unfold isCommitted
  cases hevent : step.event with
  | watermark timestamp =>
    obtain ⟨htranscript, hresult, -⟩ := h.observed hevent
    simp [htranscript, hresult]
  | checkpoint checkpoint =>
    obtain ⟨result, hstored, hresult, -⟩ := h.stored hevent
    rw [hresult]
    generalize step.transcript = transcript at hstored
    cases hstored <;> simp [Except.map, Exchange.isInserted, emitted]
  | record report =>
    have hprocessed := h.processed hevent
    generalize step.transcript = transcript, step.result = result, step.after = after
      at hprocessed
    cases hprocessed with
    | @refused cause _ =>
      cases cause <;> simp [Coordinator.refusal, Exchange.isInserted, emitted]
    | awaited _ => simp
    | idle _ _ => simp [Exchange.isInserted, emitted]
    | attempted _ _ hcourse =>
      rw [← hcourse.any_isInserted, List.any_cons, List.any_append,
        any_map_emitted (fun _ ↦ rfl), Bool.or_false]
      rfl

/-- The snapshots that a step names are among those drawn in it. -/
theorem Step.Valid.named_subset {step : Step} (h : step.Valid) {id : Uuid}
    (hid : id ∈ step.transcript.flatMap Exchange.named) :
    id ∈ step.transcript.flatMap Exchange.drawn := by
  rcases (h.balanced ⟨[], none⟩ rfl).1.named_subset hid with hknows | hdrawn
  · rcases hknows with hnone | ⟨request, hgranted, -⟩
    · cases hnone
    · cases hgranted
  · exact hdrawn

theorem calls_of_valid {steps : List Step} (h : ∀ step ∈ steps, step.Valid) :
    (steps.flatMap Step.transcript).filter Exchange.isCatalog =
      (steps.filter Step.isAttempt).flatMap Step.calls := by
  induction steps with
  | nil => rfl
  | cons step rest ih =>
    have hrest := ih fun later hmem ↦ h later (List.mem_cons_of_mem step hmem)
    rw [List.flatMap_cons, List.filter_append, hrest]
    cases hattempt : step.isAttempt with
    | true => rw [List.filter_cons_of_pos hattempt, List.flatMap_cons, Step.calls]
    | false =>
      have hnone : step.transcript.filter Exchange.isCatalog = [] :=
        (h step List.mem_cons_self).calls_eq_nil hattempt
      rw [List.filter_cons_of_neg (by simp [hattempt]), hnone, List.nil_append]

/-- Snapshots of different steps are different if no snapshot is drawn twice. -/
theorem disjoint_named_of_valid {steps : List Step} (h : ∀ step ∈ steps, step.Valid)
    (hfresh : ((steps.flatMap Step.transcript).flatMap Exchange.drawn).Nodup) :
    steps.Pairwise fun earlier later ↦ List.Disjoint
      (earlier.transcript.flatMap Exchange.named) (later.transcript.flatMap Exchange.named) := by
  rw [List.flatMap_assoc] at hfresh
  apply (List.nodup_flatMap.1 hfresh).2.imp_of_mem
  intro earlier later hearlier hlater hdrawn id hid hid'
  exact hdrawn ((h earlier hearlier).named_subset hid) ((h later hlater).named_subset hid')

/-! ## Operators -/

/-- An operator to which the events of steps are delivered, with the answers of the steps. -/
inductive Operator.Delivers (first : Operator) : List Step → Operator → Prop where
  | nil : Delivers first [] first
  | snoc {steps : List Step} {step : Step} {current next : Operator}
      {result : Except CommitError Unit} (h : Delivers first steps current)
      (hdeliver : Yields (current.deliver services store step.event) step.transcript
        (result, next)) :
      Delivers first (steps ++ [step]) next

/-- An operator counts the steps whose manifests were stored. -/
theorem Operator.commitCount_after {operator : Operator} {step : Step} (h : step.Valid) :
    (operator.after (step.result, step.after)).commitCount =
      operator.commitCount + if step.isCommitted then 1 else 0 := by
  have hsummary := h.summary_iff
  unfold Operator.after
  cases hresult : step.result with
  | error cause =>
    rw [hresult] at hsummary
    have hnone : step.isCommitted = false := by simpa using hsummary
    rw [hnone]
    rfl
  | ok summary =>
    rw [hresult] at hsummary
    cases summary with
    | none =>
      have hnone : step.isCommitted = false := by simpa using hsummary
      rw [hnone]
      rfl
    | some summary =>
      rw [hsummary.1 ⟨summary, rfl⟩]
      rfl

theorem Operator.yields_deliver {operator next : Operator} {event : HostEvent}
    {transcript : List Exchange} {result : Except CommitError Unit} :
    Yields (operator.deliver services store event) transcript (result, next) ↔
      ∃ outcome, Yields (operator.coordinator.handle services store event) transcript outcome ∧
        result = outcome.1.map (fun _ ↦ ()) ∧ next = operator.after outcome := by
  rw [deliver_eq_handle, yields_map]
  simp only [Prod.mk.injEq]

/-- The events of a run can be delivered to an operator. -/
theorem Run.exists_delivers {start current : Coordinator} {steps : List Step}
    (h : Run start steps current) : ∃ operator, Operator.Delivers (.new start) steps operator ∧
      operator.coordinator = current := by
  induction h with
  | nil => exact ⟨.new start, .nil, rfl⟩
  | @snoc steps step _ hstep ih =>
    obtain ⟨operator, hoperator, hcurrent⟩ := ih
    refine ⟨operator.after (step.result, step.after), .snoc hoperator
      (Operator.yields_deliver.2 ⟨_, ?_, rfl, rfl⟩), Operator.coordinator_after _ _⟩
    rw [hcurrent]
    exact hstep

theorem Operator.Delivers.last {first next : Operator} {steps : List Step} {step : Step}
    (h : Operator.Delivers first (steps ++ [step]) next) :
    ∃ current result, Operator.Delivers first steps current ∧
      Yields (current.deliver services store step.event) step.transcript (result, next) := by
  generalize hsteps : steps ++ [step] = list at h
  cases h with
  | nil => simp at hsteps
  | snoc h hdeliver =>
    obtain ⟨rfl, hlast⟩ := List.append_inj' hsteps rfl
    cases hlast
    exact ⟨_, _, h, hdeliver⟩

theorem Operator.Delivers.of_run {start current : Coordinator} {steps : List Step}
    (h : Run start steps current) {operator : Operator}
    (hoperator : Operator.Delivers (.new start) steps operator) :
    operator.coordinator = current ∧ operator.commitCount = steps.countP Step.isCommitted := by
  induction h generalizing operator with
  | nil =>
    generalize hsteps : ([] : List Step) = steps at hoperator
    cases hoperator with
    | nil => exact ⟨rfl, rfl⟩
    | snoc _ _ => simp at hsteps
  | @snoc steps step _ hstep ih =>
    obtain ⟨before, result, hbefore, hdeliver⟩ := hoperator.last
    obtain ⟨hcoordinator, hcount⟩ := ih hbefore
    obtain ⟨outcome, hhandle, -, rfl⟩ := Operator.yields_deliver.1 hdeliver
    rw [hcoordinator] at hhandle
    obtain rfl : outcome = (step.result, step.after) := hhandle.unique hstep
    refine ⟨Operator.coordinator_after _ _, ?_⟩
    rw [Operator.commitCount_after hstep, hcount, List.countP_append, List.countP_singleton]

/-- The two phases of all commits in a run, whatever the catalog, the listing and the store
answer. -/
theorem two_phase_protocol {start current : Coordinator} {steps : List Step}
    (hrun : Run start steps current) :
    (steps.flatMap Step.transcript).filter Exchange.isCatalog =
      (steps.filter Step.isAttempt).flatMap Step.calls ∧
    (∀ step ∈ steps, ∀ report received, step.event = .record report →
      step.before.receive report = .ok (received, true) → received.pendingList ≠ [] →
        Gated report received step.transcript) ∧
    (((steps.flatMap Step.transcript).flatMap Exchange.drawn).Nodup →
      steps.Pairwise fun earlier later ↦ List.Disjoint
        (earlier.transcript.flatMap Exchange.named)
        (later.transcript.flatMap Exchange.named)) ∧
    (∀ step ∈ steps, (∃ summary, step.result = .ok (some summary)) ↔ step.isCommitted = true) ∧
    (∃ operator, Operator.Delivers (.new start) steps operator) ∧
    (∀ operator, Operator.Delivers (.new start) steps operator →
      operator.coordinator = current ∧
        operator.commitCount = steps.countP Step.isCommitted) := by
  obtain ⟨operator, hoperator, -⟩ := hrun.exists_delivers
  exact ⟨calls_of_valid hrun.valid,
    fun step hmem report received hevent hreceive hpending ↦
      (hrun.valid step hmem).gated hevent hreceive hpending,
    disjoint_named_of_valid hrun.valid, fun step hmem ↦ (hrun.valid step hmem).summary_iff,
    ⟨operator, hoperator⟩, fun operator hoperator ↦ hoperator.of_run hrun⟩

/-- The only writer reports a partition and nothing fails. -/
def committedStep : Step :=
  .of (Call.granted ⟨"t1", "orders", "/orders", ""⟩ [] .last)
    ((Coordinator.new "orders" (.ofLocation "/orders")).start .empty)
    (.record ⟨5, 0, 1, "orders", "", .ofList ["a"]⟩)

theorem two_phase_protocol_committed :
    ∃ operator, Operator.Delivers (.new committedStep.before) [committedStep] operator ∧
      operator.commitCount = 1 := by
  have hrun : Run committedStep.before [committedStep] committedStep.after :=
    .snoc .nil (Step.valid_of _ _ _)
  obtain ⟨-, -, -, -, ⟨operator, hoperator⟩, hcount⟩ := two_phase_protocol hrun
  refine ⟨operator, hoperator, (hcount operator hoperator).2.trans ?_⟩
  decide +kernel

end CommitCoordinator
