import CommitCoordinator.Proofs.Catalog.Likeness
import CommitCoordinator.Proofs.Router.Desk
import CommitCoordinator.Proofs.Router.Projection

/-!
# Watermarks and checkpoints do not disturb commits

An operator takes in reports, and between them watermarks and checkpoints. These change neither
the catalog nor anything of the operator but its watermark, which no commit reads. Two operators
that get the same reports therefore come to the same results, whatever else they get in between,
and a checkpoint stores what is pending at that moment.
-/

namespace CommitCoordinator

open Dialogue

variable {R : Uuid → Uuid → Prop}

/-! ## Coordinators up to the watermark -/

namespace Coordinator

/-- The coordinator as if it had seen no watermark. -/
def unticked (coordinator : Coordinator) : Coordinator :=
  coordinator.observeWatermark noWatermark

variable {before after : Coordinator} {report : Report} {transcript : List Exchange}

theorem receive_observeWatermark (coordinator : Coordinator) (report : Report)
    (timestamp : Int64) : (coordinator.observeWatermark timestamp).receive report =
      (coordinator.receive report).map fun outcome ↦
        (outcome.1.observeWatermark timestamp, outcome.2) := by
  have hquorum : (coordinator.observeWatermark timestamp).quorumFor report =
      coordinator.quorumFor report := rfl
  unfold receive
  rw [hquorum]
  cases hpending : coordinator.pending with
  | none => simp [observeWatermark, hpending, Except.map]
  | some pending =>
    cases coordinator.quorumFor report <;> simp [observeWatermark, hpending, Except.map]

theorem drain_observeWatermark (coordinator : Coordinator) (timestamp : Int64) :
    (coordinator.observeWatermark timestamp).drain.2 =
      coordinator.drain.2.observeWatermark timestamp := by
  obtain ⟨label, options, pending, quorum, watermark⟩ := coordinator
  cases pending <;> rfl

theorem afterAttempt_observeWatermark (received : Coordinator) (attempt : Attempt)
    (timestamp : Int64) : (received.observeWatermark timestamp).afterAttempt attempt =
      (received.afterAttempt attempt).observeWatermark timestamp := by
  unfold afterAttempt
  split
  · exact received.drain_observeWatermark timestamp
  · rfl

/-- No watermark has an influence on how a report is processed. -/
theorem Processed.observeWatermark {result : Except CommitError (Option CommitSummary)}
    (h : before.Processed report transcript result after) (timestamp : Int64) :
    (before.observeWatermark timestamp).Processed report transcript result
      (after.observeWatermark timestamp) := by
  have hreceived {outcome : Except CommitError (Coordinator × Bool)}
      (hreceive : before.receive report = outcome) := by
    have := before.receive_observeWatermark report timestamp
    rwa [hreceive] at this
  cases h with
  | refused hreceive => exact .refused (hreceived hreceive)
  | awaited hreceive => exact .awaited (hreceived hreceive)
  | idle hreceive hpending =>
    rw [← drain_observeWatermark]
    exact .idle (hreceived hreceive) hpending
  | attempted hreceive hpending hcourse =>
    rw [← afterAttempt_observeWatermark]
    exact .attempted (hreceived hreceive) hpending hcourse

theorem resultOf_eq_ok {partitions : List String} {attempt : Attempt}
    {summary : Option CommitSummary} (h : resultOf report partitions attempt = .ok summary) :
    ∃ payload, attempt = .committed payload := by
  cases attempt with
  | committed payload => exact ⟨payload, rfl⟩
  | _ => cases h

/-- A report that is processed twice without an error, over catalogs that are alike and with the
same files, has the same result, and leaves catalogs behind that are alike. -/
theorem Processed.alike {summary summary' : Option CommitSummary} {transcript' : List Exchange}
    {after' : Coordinator} (h : before.Processed report transcript (.ok summary) after)
    (h' : before.Processed report transcript' (.ok summary') after')
    {catalog next catalog' next' : Catalog} (halong : Along Catalog.Grants catalog transcript next)
    (halong' : Along Catalog.Grants catalog' transcript' next')
    (hcatalog : catalog.Alike R catalog') (hunseen : catalog.Unseen transcript)
    (hunseen' : catalog'.Unseen transcript') {rest rest' : List Exchange}
    (hanswers : Concordant R (surveys transcript ++ rest) (surveys transcript' ++ rest')) :
    Option.Rel (CommitSummary.Alike R) summary summary' ∧ after' = after ∧
      next.Alike R next' ∧ Concordant R rest rest' := by
  generalize hresult : (Except.ok summary : Except CommitError (Option CommitSummary)) = result at h
  cases h with
  | refused hreceive => cases hresult
  | awaited hreceive =>
    obtain ⟨rfl, hnone, rfl⟩ := h'.of_awaited hreceive
    cases hresult
    cases hnone
    obtain rfl : next = catalog := halong
    obtain rfl : next' = catalog' := halong'
    exact ⟨.none, rfl, hcatalog, hanswers⟩
  | idle hreceive hpending =>
    obtain ⟨-, rfl, hnone, rfl⟩ | ⟨hsome, -⟩ := h'.of_completed hreceive
    · cases hresult
      cases hnone
      obtain rfl := along_emitted halong
      obtain rfl := along_emitted halong'
      exact ⟨.none, rfl, hcatalog, hanswers⟩
    · exact absurd hpending hsome
  | @attempted received exchanges attempt hreceive hpending hcourse =>
    obtain ⟨hnone, -⟩ | ⟨-, exchanges', attempt', hcourse', rfl, hresult', rfl⟩ :=
      h'.of_completed hreceive
    · exact absurd hnone hpending
    obtain ⟨payload, rfl⟩ := resultOf_eq_ok hresult.symm
    obtain ⟨payload', rfl⟩ := resultOf_eq_ok hresult'.symm
    obtain ⟨table, findings, time, hpartitions, rfl, rfl⟩ := hcourse.fulfilled_of_committed
    obtain ⟨table', findings', time', hpartitions', rfl, rfl⟩ := hcourse'.fulfilled_of_committed
    change Along Catalog.Grants catalog (received.commitment report table findings time) next
      at halong
    change Along Catalog.Grants catalog' (received.commitment report table' findings' time') next'
      at halong'
    change catalog.Unseen (received.commitment report table findings time) at hunseen
    change catalog'.Unseen (received.commitment report table' findings' time') at hunseen'
    change Concordant R (surveys (received.commitment report table findings time) ++ rest)
      (surveys (received.commitment report table' findings' time') ++ rest') at hanswers
    obtain ⟨hlookup, hcommits⟩ := commits_of_commitment halong
    obtain ⟨hlookup', hcommits'⟩ := commits_of_commitment halong'
    obtain rfl : table' = table := by
      rw [hcatalog.lookup_eq, hlookup'] at hlookup
      exact Except.ok.inj hlookup
    rw [surveys_commitment, surveys_commitment] at hanswers
    obtain ⟨halike, hrest⟩ := findings_alike hanswers (hpartitions.symm.trans hpartitions')
    have hpayload := alike_payloadOf halike received.options report.fileMark table' time time'
    obtain ⟨hnodup, hlacks⟩ := hunseen
    obtain ⟨hnodup', hlacks'⟩ := hunseen'
    rw [drawn_commitment] at hnodup hlacks hnodup' hlacks'
    refine ⟨?_, rfl, hcatalog.commits hpayload hcommits ?_ ?_ hcommits' ?_ ?_, hrest⟩
    · have hsummaries := (Attempt.Alike.committed hpayload).resultOf report received.pendingList
      rw [← hresult, ← hresult'] at hsummaries
      cases hsummaries with
      | ok hsummary => exact hsummary
    all_goals rwa [manifests_payloadOf]

end Coordinator

/-! ## Reports among other events -/

/-- Whether an event is a report. -/
def HostEvent.isReport : HostEvent → Bool
  | .record _ => true
  | _ => false

/-- Whether nothing has happened to an operator and the catalog but watermarks and checkpoints. -/
structure Grounds.Rests {σ : Type} (grounds : Grounds σ) (operator : Operator) (s : σ)
    (next : Operator) (after : σ) : Prop where
  sound : grounds.sound after
  catalog : grounds.catalog after = grounds.catalog s
  coordinator : next.coordinator.unticked = operator.coordinator.unticked
  commitCount : next.commitCount = operator.commitCount

theorem Grounds.Rests.trans {σ : Type} {grounds : Grounds σ} {operator between next : Operator}
    {s middle after : σ}
    (h : grounds.Rests operator s between middle) (h' : grounds.Rests between middle next after) :
    grounds.Rests operator s next after where
  sound := h'.sound
  catalog := h'.catalog.trans h.catalog
  coordinator := h'.coordinator.trans h.coordinator
  commitCount := h'.commitCount.trans h.commitCount

section Steps

variable {σ : Type} [MonadMetrics (StateM σ)] [MonadFresh (StateM σ)] [MonadClock (StateM σ)]

namespace Operator

/-- The steps of an operator that take in reports. -/
def reports (services : Services (StateM σ)) (store : SnapshotStore (StateM σ))
    (events : List HostEvent) (operator : Operator) (s : σ) : List Step :=
  (operator.steps services store events s).filter (·.event.isReport)

variable {services : Services (StateM σ)} {store : SnapshotStore (StateM σ)} {event : HostEvent}
  {operator next : Operator} {s after : σ}

theorem reports_cons_of_quiet (hquiet : event.isReport = false)
    (hdeliver : operator.deliver services store event s = ((.ok (), next), after))
    (rest : List HostEvent) : operator.reports services store (event :: rest) s =
      next.reports services store rest after := by
  rw [reports, steps, hdeliver, List.filter_cons_of_neg (by exact Bool.eq_false_iff.1 hquiet)]
  rfl

theorem reports_cons_of_report (hreport : event.isReport = true)
    (hdeliver : operator.deliver services store event s = ((.ok (), next), after))
    (rest : List HostEvent) : operator.reports services store (event :: rest) s =
      operator.stepOf services store event s :: next.reports services store rest after := by
  rw [reports, steps, hdeliver, List.filter_cons_of_pos (by exact hreport)]
  rfl

end Operator

section Quiet

variable {grounds : Grounds σ} {services : Services (StateM σ)} {store : SnapshotStore (StateM σ)}
  {event : HostEvent} {events : List HostEvent} {operator next final : Operator} {s after last : σ}
  {delivered total : Nat}

/-- A watermark or a checkpoint that is delivered without an error leaves everything else alone. -/
theorem rests_of_deliver (hsupports : grounds.Supports services store) (hsound : grounds.sound s)
    (hquiet : event.isReport = false)
    (hdeliver : operator.deliver services store event s = ((.ok (), next), after)) :
    grounds.Rests operator s next after := by
  obtain ⟨summary, coordinator, hvalid, halong, rfl⟩ := Operator.step_of_deliver hdeliver
  obtain ⟨hafter, hcatalog, hstore⟩ :=
    hsupports.along hsound halong (hvalid.isFailure_eq_false rfl)
  cases event with
  | record report => cases hquiet
  | watermark timestamp =>
    obtain ⟨htranscript, hsummary, hobserved⟩ := hvalid.observed rfl
    cases hsummary
    dsimp only at htranscript hobserved
    rw [htranscript] at hcatalog
    exact ⟨hafter, hcatalog, by rw [Operator.coordinator_after, hobserved]; rfl, rfl⟩
  | checkpoint id =>
    obtain ⟨outcome, hsaved, hsummary, hsame⟩ := hvalid.stored rfl
    dsimp only at hsaved hsummary hsame
    cases outcome with
    | error cause => cases hsummary
    | ok =>
      cases hsummary
      obtain ⟨pending, -, hsaving⟩ := hsaved.eq_saving
      rw [hsaving] at hcatalog hstore
      exact ⟨hafter, (Coordinator.along_saving hcatalog hstore).1,
        by rw [Operator.coordinator_after, hsame], rfl⟩

/-- Up to its first report a run rests, and goes on from there. -/
theorem exists_report_of_drive (hsupports : grounds.Supports services store)
    (hsound : grounds.sound s)
    (hdrive : driveWith (Operator.deliver services store) delivered events operator s =
      ((.ok total, final), last)) {report : HostEvent} {reports : List HostEvent}
    (hreports : events.filter HostEvent.isReport = report :: reports) :
    ∃ next after counted rest, grounds.Rests operator s next after ∧
      rest.filter HostEvent.isReport = reports ∧
      operator.reports services store events s =
        next.reports services store (report :: rest) after ∧
      driveWith (Operator.deliver services store) counted (report :: rest) next after =
        ((.ok total, final), last) := by
  induction events generalizing operator s delivered with
  | nil => cases hreports
  | cons event events ih =>
    cases hreport : event.isReport with
    | true =>
      rw [List.filter_cons_of_pos hreport] at hreports
      obtain ⟨rfl, hrest⟩ := List.cons.inj hreports
      exact ⟨operator, s, delivered, events, ⟨hsound, rfl, rfl, rfl⟩, hrest, rfl, hdrive⟩
    | false =>
      rw [List.filter_cons_of_neg (Bool.eq_false_iff.1 hreport)] at hreports
      obtain ⟨between, middle, hdeliver, hdrive⟩ := driveWith_cons_eq_ok.1 hdrive
      have hrests := rests_of_deliver hsupports hsound hreport hdeliver
      obtain ⟨next, after, counted, rest, hlater, hrest, hsteps, hdrive⟩ :=
        ih hrests.sound hdrive hreports
      exact ⟨next, after, counted, rest, hrests.trans hlater, hrest,
        (Operator.reports_cons_of_quiet hreport hdeliver events).trans hsteps, hdrive⟩

/-- A run without reports rests. -/
theorem rests_of_drive (hsupports : grounds.Supports services store) (hsound : grounds.sound s)
    (hdrive : driveWith (Operator.deliver services store) delivered events operator s =
      ((.ok total, final), last))
    (hreports : events.filter HostEvent.isReport = []) :
    grounds.Rests operator s final last ∧ operator.reports services store events s = [] := by
  induction events generalizing operator s delivered with
  | nil =>
    cases hdrive
    exact ⟨⟨hsound, rfl, rfl, rfl⟩, rfl⟩
  | cons event events ih =>
    have hquiet : event.isReport = false :=
      Bool.eq_false_iff.2 (List.filter_eq_nil_iff.1 hreports event List.mem_cons_self)
    rw [List.filter_cons_of_neg (Bool.eq_false_iff.1 hquiet)] at hreports
    obtain ⟨between, middle, hdeliver, hdrive⟩ := driveWith_cons_eq_ok.1 hdrive
    have hrests := rests_of_deliver hsupports hsound hquiet hdeliver
    obtain ⟨hlater, hsteps⟩ := ih hrests.sound hdrive hreports
    exact ⟨hrests.trans hlater,
      (Operator.reports_cons_of_quiet hquiet hdeliver events).trans hsteps⟩

end Quiet

end Steps

/-! ## What a checkpoint stores -/

/-- The time of a watermark. -/
def HostEvent.timestamp? : HostEvent → Option Int64
  | .watermark timestamp => some timestamp
  | _ => none

/-- The last watermark among events. -/
def lastWatermark? (events : List HostEvent) : Option Int64 :=
  (events.filterMap HostEvent.timestamp?).getLast?

theorem lastWatermark?_cons (event : HostEvent) (rest : List HostEvent) (watermark : Int64) :
    (lastWatermark? (event :: rest)).getD watermark =
      (lastWatermark? rest).getD (event.timestamp?.getD watermark) := by
  unfold lastWatermark?
  cases htimestamp : event.timestamp? with
  | none => rw [List.filterMap_cons_none htimestamp, Option.getD_none]
  | some timestamp =>
    rw [List.filterMap_cons_some htimestamp, List.getLast?_cons, Option.getD_some,
      Option.getD_some]

section Stored

variable {σ : Type} [MonadMetrics (StateM σ)] [MonadFresh (StateM σ)] [MonadClock (StateM σ)]
  {grounds : Grounds σ} {services : Services (StateM σ)} {store : SnapshotStore (StateM σ)}
  {event : HostEvent} {events : List HostEvent} {operator next final : Operator} {s after last : σ}
  {delivered total : Nat}

/-- What an operator remembers of watermarks, and what it stores at a checkpoint. -/
theorem watermark_of_deliver (hsupports : grounds.Supports services store)
    (hsound : grounds.sound s)
    (hdeliver : operator.deliver services store event s = ((.ok (), next), after)) :
    grounds.sound after ∧
      next.coordinator.watermark = event.timestamp?.getD operator.coordinator.watermark ∧
      ∀ id, event = .checkpoint id → grounds.stored after =
        some [.take id operator.coordinator.watermark next.coordinator.pendingList] := by
  obtain ⟨summary, coordinator, hvalid, halong, rfl⟩ := Operator.step_of_deliver hdeliver
  obtain ⟨hafter, hcatalog, hstore⟩ :=
    hsupports.along hsound halong (hvalid.isFailure_eq_false rfl)
  rw [Operator.coordinator_after]
  cases event with
  | record report =>
    have hfixed : coordinator.fixed = operator.coordinator.fixed := (hvalid.processed rfl).fixed_eq
    exact ⟨hafter, congrArg (fun fixed ↦ fixed.2.2) hfixed, nofun⟩
  | watermark timestamp =>
    obtain ⟨-, -, hobserved⟩ := hvalid.observed rfl
    dsimp only at hobserved
    rw [hobserved]
    exact ⟨hafter, rfl, nofun⟩
  | checkpoint id =>
    obtain ⟨outcome, hsaved, hsummary, hsame⟩ := hvalid.stored rfl
    dsimp only at hsaved hsummary hsame
    cases outcome with
    | error cause => cases hsummary
    | ok =>
      obtain ⟨pending, hpending, hsaving⟩ := hsaved.eq_saving
      rw [hsaving] at hcatalog hstore
      rw [hsame, (Coordinator.along_saving hcatalog hstore).2,
        Coordinator.pendingList_eq_toList hpending]
      refine ⟨hafter, rfl, fun other hother ↦ ?_⟩
      cases hother
      rfl

theorem watermark_of_drive (hsupports : grounds.Supports services store)
    (hsound : grounds.sound s)
    (hdrive : driveWith (Operator.deliver services store) delivered events operator s =
      ((.ok total, final), last)) :
    grounds.sound last ∧ final.coordinator.watermark =
      (lastWatermark? events).getD operator.coordinator.watermark := by
  induction events generalizing operator s delivered with
  | nil =>
    cases hdrive
    exact ⟨hsound, rfl⟩
  | cons event rest ih =>
    obtain ⟨next, after, hdeliver, hdrive⟩ := driveWith_cons_eq_ok.1 hdrive
    obtain ⟨hafter, hwatermark, -⟩ := watermark_of_deliver hsupports hsound hdeliver
    obtain ⟨hlast, hfinal⟩ := ih hafter hdrive
    rw [hfinal, hwatermark, lastWatermark?_cons]
    exact ⟨hlast, rfl⟩

/-- Right after a checkpoint the store holds what was pending then, and the last watermark. -/
theorem stored_of_drive (hsupports : grounds.Supports services store) (hsound : grounds.sound s)
    {front back : List HostEvent} {id : Int64}
    (hdrive : driveWith (Operator.deliver services store) delivered
      (front ++ .checkpoint id :: back) operator s = ((.ok total, final), last)) :
    ∃ next after, driveWith (Operator.deliver services store) delivered
        (front ++ [.checkpoint id]) operator s =
          ((.ok (delivered + (front.length + 1)), next), after) ∧
      grounds.stored after = some [.take id
        ((lastWatermark? front).getD operator.coordinator.watermark)
        next.coordinator.pendingList] := by
  obtain ⟨between, middle, hfront, hback⟩ := driveWith_append_eq_ok.1 hdrive
  obtain ⟨next, after, hdeliver, -⟩ := driveWith_cons_eq_ok.1 hback
  obtain ⟨hmiddle, hwatermark⟩ := watermark_of_drive hsupports hsound hfront
  refine ⟨next, after, driveWith_append_eq_ok.2 ⟨between, middle, hfront,
    driveWith_cons_eq_ok.2 ⟨next, after, hdeliver, rfl⟩⟩, ?_⟩
  rw [(watermark_of_deliver hsupports hmiddle hdeliver).2.2 id rfl, hwatermark]

end Stored

/-! ## Two operators with the same reports -/

section Pair

variable {σ τ : Type}

/-- Two operators that are the same but for the watermark, over catalogs that are alike. -/
structure Concurs (R : Uuid → Uuid → Prop) (grounds : Grounds σ) (others : Grounds τ)
    (operator other : Operator) (s : σ) (t : τ) : Prop where
  sound : grounds.sound s
  sound' : others.sound t
  catalog : (grounds.catalog s).Alike R (others.catalog t)
  coordinator : operator.coordinator.unticked = other.coordinator.unticked
  commitCount : operator.commitCount = other.commitCount

namespace Concurs

variable {grounds : Grounds σ} {others : Grounds τ} {operator other next next' : Operator}
  {s after : σ} {t after' : τ}

theorem pendingList_eq (h : Concurs R grounds others operator other s t) :
    operator.coordinator.pendingList = other.coordinator.pendingList := by
  have hpending := congrArg Coordinator.pendingList h.coordinator
  exact hpending

theorem quorum_eq (h : Concurs R grounds others operator other s t) :
    operator.coordinator.quorum = other.coordinator.quorum := by
  have hquorum := congrArg Coordinator.quorum h.coordinator
  exact hquorum

theorem rest (h : Concurs R grounds others operator other s t)
    (hrests : grounds.Rests operator s next after) (hrests' : others.Rests other t next' after') :
    Concurs R grounds others next next' after after' where
  sound := hrests.sound
  sound' := hrests'.sound
  catalog := by
    rw [hrests.catalog, hrests'.catalog]
    exact h.catalog
  coordinator := hrests.coordinator.trans (h.coordinator.trans hrests'.coordinator.symm)
  commitCount := hrests.commitCount.trans (h.commitCount.trans hrests'.commitCount.symm)

variable [MonadMetrics (StateM σ)] [MonadFresh (StateM σ)] [MonadClock (StateM σ)]
  [MonadMetrics (StateM τ)] [MonadFresh (StateM τ)] [MonadClock (StateM τ)]
  {services : Services (StateM σ)} {store : SnapshotStore (StateM σ)}
  {services' : Services (StateM τ)} {store' : SnapshotStore (StateM τ)}

/-- A report that both take in without an error has the same result, and both are the same again. -/
theorem report (h : Concurs R grounds others operator other s t)
    (hsupports : grounds.Supports services store) (hsupports' : others.Supports services' store')
    {event : HostEvent} (hreport : event.isReport = true)
    (hdeliver : operator.deliver services store event s = ((.ok (), next), after))
    (hdeliver' : other.deliver services' store' event t = ((.ok (), next'), after'))
    (hunseen : (grounds.catalog s).Unseen (operator.stepOf services store event s).transcript)
    (hunseen' : (others.catalog t).Unseen (other.stepOf services' store' event t).transcript)
    {rest rest' : List Exchange}
    (hanswers : Concordant R
      (surveys (operator.stepOf services store event s).transcript ++ rest)
      (surveys (other.stepOf services' store' event t).transcript ++ rest')) :
    ResultsAlike R (operator.stepOf services store event s).result
        (other.stepOf services' store' event t).result ∧
      Concurs R grounds others next next' after after' ∧ Concordant R rest rest' := by
  obtain ⟨summary, hvalid, hresult, halong, rfl⟩ := Operator.valid_of_deliver hdeliver
  obtain ⟨summary', hvalid', hresult', halong', rfl⟩ := Operator.valid_of_deliver hdeliver'
  obtain ⟨hsound, hcatalog, -⟩ :=
    hsupports.along h.sound halong (hvalid.isFailure_eq_false hresult)
  obtain ⟨hsound', hcatalog', -⟩ :=
    hsupports'.along h.sound' halong' (hvalid'.isFailure_eq_false hresult')
  cases event with
  | watermark timestamp => cases hreport
  | checkpoint id => cases hreport
  | record report =>
    have hprocessed := hvalid.processed rfl
    have hprocessed' := hvalid'.processed rfl
    rw [hresult] at hprocessed
    rw [hresult'] at hprocessed'
    -- without their watermarks the two coordinators are one
    have hunticked := hprocessed.observeWatermark noWatermark
    have hunticked' := hprocessed'.observeWatermark noWatermark
    rw [show (operator.stepOf services store (.record report) s).before.observeWatermark
      noWatermark = (other.stepOf services' store' (.record report) t).before.observeWatermark
        noWatermark from h.coordinator] at hunticked
    obtain ⟨hsummary, hcoordinator, hcatalogs, hrest⟩ :=
      hunticked.alike hunticked' hcatalog hcatalog' h.catalog hunseen hunseen' hanswers
    refine ⟨?_, ⟨hsound, hsound', hcatalogs, ?_, ?_⟩, hrest⟩
    · rw [hresult, hresult']
      exact .ok hsummary
    · rw [Operator.coordinator_after, Operator.coordinator_after]
      exact hcoordinator.symm
    · have hsome : summary.isSome = summary'.isSome := by cases hsummary <;> rfl
      rw [Operator.commitCount_after_ok, Operator.commitCount_after_ok, h.commitCount, hsome]

/-- Runs with the same reports have the same results, whatever else is delivered. -/
theorem drive (hsupports : grounds.Supports services store)
    (hsupports' : others.Supports services' store') {reports : List HostEvent}
    {events events' : List HostEvent} {final final' : Operator} {last : σ} {last' : τ}
    {delivered total delivered' total' : Nat}
    (h : Concurs R grounds others operator other s t)
    (hdrive : driveWith (Operator.deliver services store) delivered events operator s =
      ((.ok total, final), last))
    (hdrive' : driveWith (Operator.deliver services' store') delivered' events' other t =
      ((.ok total', final'), last'))
    (hreports : events.filter HostEvent.isReport = reports)
    (hreports' : events'.filter HostEvent.isReport = reports)
    (hunseen : (grounds.catalog s).Unseen
      ((operator.reports services store events s).flatMap Step.transcript))
    (hunseen' : (others.catalog t).Unseen
      ((other.reports services' store' events' t).flatMap Step.transcript))
    (hanswers : Concordant R
      (surveys ((operator.reports services store events s).flatMap Step.transcript))
      (surveys ((other.reports services' store' events' t).flatMap Step.transcript))) :
    (operator.reports services store events s).map Step.event = reports ∧
      List.Forall₂ (ResultsAlike R)
        ((operator.reports services store events s).map Step.result)
        ((other.reports services' store' events' t).map Step.result) ∧
      Concurs R grounds others final final' last last' := by
  induction reports generalizing operator other s t events events' delivered delivered' with
  | nil =>
    obtain ⟨hrests, hsteps⟩ := rests_of_drive hsupports h.sound hdrive hreports
    obtain ⟨hrests', hsteps'⟩ := rests_of_drive hsupports' h.sound' hdrive' hreports'
    rw [hsteps, hsteps']
    exact ⟨rfl, .nil, h.rest hrests hrests'⟩
  | cons report reports ih =>
    have hreport : report.isReport = true := by
      have hmem : report ∈ events.filter HostEvent.isReport := hreports ▸ List.mem_cons_self
      exact (List.mem_filter.1 hmem).2
    obtain ⟨between, middle, counted, rest, hrests, hrest, hsteps, hdrive⟩ :=
      exists_report_of_drive hsupports h.sound hdrive hreports
    obtain ⟨between', middle', counted', rest', hrests', hrest', hsteps', hdrive'⟩ :=
      exists_report_of_drive hsupports' h.sound' hdrive' hreports'
    obtain ⟨next, after, hdeliver, hdrive⟩ := driveWith_cons_eq_ok.1 hdrive
    obtain ⟨next', after', hdeliver', hdrive'⟩ := driveWith_cons_eq_ok.1 hdrive'
    rw [hsteps, Operator.reports_cons_of_report hreport hdeliver, List.flatMap_cons] at hunseen
    rw [hsteps', Operator.reports_cons_of_report hreport hdeliver', List.flatMap_cons] at hunseen'
    rw [hsteps, hsteps', Operator.reports_cons_of_report hreport hdeliver,
      Operator.reports_cons_of_report hreport hdeliver', List.flatMap_cons, List.flatMap_cons,
      surveys_append, surveys_append] at hanswers
    rw [hsteps, hsteps', Operator.reports_cons_of_report hreport hdeliver,
      Operator.reports_cons_of_report hreport hdeliver']
    rw [← hrests.catalog] at hunseen
    rw [← hrests'.catalog] at hunseen'
    obtain ⟨hresult, hnext, hanswers⟩ := (h.rest hrests hrests').report hsupports hsupports'
      hreport hdeliver hdeliver' hunseen.of_append hunseen'.of_append hanswers
    obtain ⟨summary, hvalid, hok, halong, -⟩ := Operator.valid_of_deliver hdeliver
    obtain ⟨summary', hvalid', hok', halong', -⟩ := Operator.valid_of_deliver hdeliver'
    obtain ⟨hevents, hresults, hconcurs⟩ := ih hnext hdrive hdrive' hrest hrest'
      (hsupports.unseen hrests.sound hvalid halong (hvalid.isFailure_eq_false hok) hunseen)
      (hsupports'.unseen hrests'.sound hvalid' halong' (hvalid'.isFailure_eq_false hok') hunseen')
      hanswers
    exact ⟨congrArg (report :: ·) hevents, .cons hresult hresults, hconcurs⟩

end Concurs

variable [MonadMetrics (StateM σ)] [MonadFresh (StateM σ)] [MonadClock (StateM σ)]
  [MonadMetrics (StateM τ)] [MonadFresh (StateM τ)] [MonadClock (StateM τ)]

/-- Watermarks and checkpoints have no influence on commits. Let one operator, as it is initialized,
get the same reports in two surroundings with catalogs that are alike, the same files in directories
and new identifiers, and in between any watermarks and checkpoints. As long as no event fails, each
report has the same result, and the operator ends with the same pending partitions, quorum and
number of commits and with catalogs that are alike. Right after each checkpoint the store holds what
was pending then with the last watermark, whatever it held before. -/
theorem commits_are_undisturbed (here : Workplace σ) (there : Workplace τ) {label : String}
    {options : SinkOptions} {pending : Pending} {operator : Operator}
    (hoperator : operator = .new ((Coordinator.new label options).start pending))
    {events others : List HostEvent} {s last : σ} {t last' : τ} {final final' : Operator}
    {delivered delivered' : Nat} (hsound : here.sound s) (hsound' : there.sound t)
    (hcatalog : (here.catalog s).Alike R (there.catalog t))
    (hreports : events.filter HostEvent.isReport = others.filter HostEvent.isReport)
    (hdrive : (operator.drive here.services here.store events : StateM σ _) s =
      ((.ok delivered, final), last))
    (hdrive' : (operator.drive there.services there.store others : StateM τ _) t =
      ((.ok delivered', final'), last'))
    (hunseen : (here.catalog s).Unseen
      ((operator.reports here.services here.store events s).flatMap Step.transcript))
    (hunseen' : (there.catalog t).Unseen
      ((operator.reports there.services there.store others t).flatMap Step.transcript))
    (hanswers : Concordant R
      (surveys ((operator.reports here.services here.store events s).flatMap Step.transcript))
      (surveys ((operator.reports there.services there.store others t).flatMap
        Step.transcript))) :
    (operator.reports here.services here.store events s).map Step.event =
      events.filter HostEvent.isReport ∧
    List.Forall₂ (ResultsAlike R)
      ((operator.reports here.services here.store events s).map Step.result)
      ((operator.reports there.services there.store others t).map Step.result) ∧
    final.coordinator.pendingList = final'.coordinator.pendingList ∧
    final.coordinator.quorum = final'.coordinator.quorum ∧
    final.commitCount = final'.commitCount ∧
    (here.catalog last).Alike R (there.catalog last') ∧
    ∀ front id back, events = front ++ .checkpoint id :: back → ∃ next after,
      (operator.drive here.services here.store (front ++ [.checkpoint id]) : StateM σ _) s =
        ((.ok (front.length + 1), next), after) ∧
      here.stored after = some [.take id ((lastWatermark? front).getD noWatermark)
        next.coordinator.pendingList] := by
  have hconcurs : Concurs R here.toGrounds there.toGrounds operator operator s t :=
    ⟨hsound, hsound', hcatalog, rfl, rfl⟩
  obtain ⟨hevents, hresults, hfinal⟩ := hconcurs.drive here.supports there.supports hdrive hdrive'
    rfl hreports.symm hunseen hunseen' hanswers
  refine ⟨hevents, hresults, hfinal.pendingList_eq, hfinal.quorum_eq,
    hfinal.commitCount, hfinal.catalog, ?_⟩
  rintro front id back rfl
  obtain ⟨next, after, hprefix, hstored⟩ := stored_of_drive here.supports hsound hdrive
  rw [Nat.zero_add] at hprefix
  have hwatermark : operator.coordinator.watermark = noWatermark := by
    rw [hoperator]
    rfl
  rw [hwatermark] at hstored
  exact ⟨next, after, hprefix, hstored⟩

end Pair

/-! ## A table at two desks -/

/-- What the operator does with events at the desk. -/
def ordersRun (events : List HostEvent) (desk : Desk) :
    (Except CommitError Nat × Operator) × Desk :=
  (ordersOperator.drive Desk.services memoryStore events : StateM Desk _) desk

theorem ordersRun_eq {events : List HostEvent} {desk : Desk} {delivered : Nat}
    (h : (ordersRun events desk).1.1 = .ok delivered) :
    (ordersOperator.drive Desk.workplace.services Desk.workplace.store events : StateM Desk _)
      desk = ((.ok delivered, (ordersRun events desk).1.2), (ordersRun events desk).2) := by
  rw [← h]
  rfl

/-- The report is committed after a watermark as it is after a checkpoint, over snapshots that were
stored before. -/
theorem commits_are_undisturbed_orders :
    (ordersRun [.watermark 40, ordersReport, .checkpoint 6] (ordersDesk [])).1.2.commitCount = 1 ∧
      (ordersRun [.watermark 40, ordersReport, .checkpoint 6] (ordersDesk [])).2.catalog.Alike Eq
        (ordersRun [.checkpoint 4, ordersReport] (ordersDesk [.take 3 7 ["b"]])).2.catalog ∧
      ∃ next after, ordersRun [.watermark 40, ordersReport, .checkpoint 6] (ordersDesk []) =
          ((.ok 3, next), after) ∧
        after.snapshots = [.take 6 40 next.coordinator.pendingList] := by
  have hdrawn : ((ordersOperator.reports Desk.services memoryStore
      [.watermark 40, ordersReport, .checkpoint 6] (ordersDesk [])).flatMap
        Step.transcript).flatMap Exchange.drawn = [.ofNumber 0] := rfl
  have hdrawn' : ((ordersOperator.reports Desk.services memoryStore [.checkpoint 4, ordersReport]
      (ordersDesk [.take 3 7 ["b"]])).flatMap Step.transcript).flatMap Exchange.drawn =
        [.ofNumber 0] := rfl
  have hlacks : leakedTables.Lacks [.ofNumber 0] := fun id _ ↦ ⟨fun _ _ ↦ List.not_mem_nil, rfl⟩
  have hsurveys : surveys ((ordersOperator.reports Desk.services memoryStore
      [.watermark 40, ordersReport, .checkpoint 6] (ordersDesk [])).flatMap Step.transcript) =
        [⟨.list "/orders/a", .ok []⟩, ⟨.freshId, .ofNumber 0⟩] := rfl
  have hsurveys' : surveys ((ordersOperator.reports Desk.services memoryStore
      [.checkpoint 4, ordersReport] (ordersDesk [.take 3 7 ["b"]])).flatMap Step.transcript) =
        [⟨.list "/orders/a", .ok []⟩, ⟨.freshId, .ofNumber 0⟩] := rfl
  have hanswers : Concordant Eq
      (surveys ((ordersOperator.reports Desk.services memoryStore
        [.watermark 40, ordersReport, .checkpoint 6] (ordersDesk [])).flatMap Step.transcript))
      (surveys ((ordersOperator.reports Desk.services memoryStore
        [.checkpoint 4, ordersReport] (ordersDesk [.take 3 7 ["b"]])).flatMap
          Step.transcript)) := by
    rw [hsurveys, hsurveys']
    exact fun _ ↦ ⟨rfl, fun _ ↦ ⟨rfl, trivial⟩⟩
  have hreports : [.watermark 40, ordersReport, .checkpoint 6].filter HostEvent.isReport =
      [.checkpoint 4, ordersReport].filter HostEvent.isReport := rfl
  obtain ⟨-, -, -, -, hcount, hcatalog, hstored⟩ := commits_are_undisturbed Desk.workplace
    Desk.workplace (show ordersOperator = _ from rfl) trivial trivial
    (Catalog.Alike.refl (fun _ ↦ rfl) leakedTables) hreports
    (ordersRun_eq (show (ordersRun _ (ordersDesk [])).1.1 = .ok 3 by decide +kernel))
    (ordersRun_eq (show (ordersRun _ (ordersDesk [.take 3 7 ["b"]])).1.1 = .ok 2 by
      decide +kernel))
    ⟨hdrawn ▸ List.nodup_singleton _, hdrawn ▸ hlacks⟩
    ⟨hdrawn' ▸ List.nodup_singleton _, hdrawn' ▸ hlacks⟩ hanswers
  obtain ⟨next, after, hprefix, hsnapshots⟩ := hstored [.watermark 40, ordersReport] 6 [] rfl
  exact ⟨hcount.trans (by decide +kernel), hcatalog, next, after, hprefix,
    Option.some.inj hsnapshots⟩

end CommitCoordinator
