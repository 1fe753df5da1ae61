import CommitCoordinator.Proofs.Router.Grounds
import CommitCoordinator.Proofs.Router.Visits

/-!
# One table of a router

The visits of a router to one table are the steps of an operator that works alone. The visits to
other tables leave the share of the table in the catalog and its store alone, so an operator that
gets the events of one table only, in surroundings of its own, keeps up with the one in the router.
-/

namespace CommitCoordinator

open Dialogue

variable {σ τ : Type} {R : Uuid → Uuid → Prop}

theorem Catalog.lookup_congr {catalog other : Catalog} (h : catalog.tables = other.tables)
    (name : String) : catalog.lookup name = other.lookup name := by
  rw [lookup, lookup, table?, table?, h]

/-- Two operators of one table, each in its own surroundings, that have done the same so far. The
tables in both catalogs are those from the start. -/
structure Mirrors (R : Uuid → Uuid → Prop) (grounds : Grounds σ) (alone : Grounds τ)
    (start start' : Catalog) (tableId : String) (operator other : Operator) (s : σ) (t : τ) :
    Prop where
  sound : grounds.sound s
  sound' : alone.sound t
  tables : (grounds.catalog s).tables = start.tables
  tables' : (alone.catalog t).tables = start'.tables
  share : (grounds.catalog s).ShareAlike R tableId (alone.catalog t)
  stored : grounds.stored s = alone.stored t
  coordinator : operator.coordinator = other.coordinator
  commitCount : operator.commitCount = other.commitCount

section Steps

variable [MonadMetrics (StateM σ)] [MonadFresh (StateM σ)] [MonadClock (StateM σ)]

/-- Nothing has failed in a step without an error. -/
theorem Step.Valid.isFailure_eq_false {step : Step} (h : step.Valid)
    {summary : Option CommitSummary} (hresult : step.result = .ok summary) :
    ∀ exchange ∈ step.transcript, exchange.isFailure = false := by
  cases hevent : step.event with
  | record report =>
    have hprocessed := h.processed hevent
    rw [hresult] at hprocessed
    exact hprocessed.succeeded.isFailure_eq_false
  | watermark timestamp =>
    rw [(h.observed hevent).1]
    exact fun _ hexchange ↦ absurd hexchange List.not_mem_nil
  | checkpoint id =>
    obtain ⟨result, hstored, hsame, -⟩ := h.stored hevent
    rw [hresult] at hsame
    generalize step.transcript = transcript at hstored
    cases hstored with
    | uninitialized hpending => cases hsame
    | failed cause hpending => cases hsame
    | stored hpending =>
      intro exchange hexchange
      rcases List.mem_pair.1 hexchange with rfl | rfl <;> rfl

namespace Coordinator

/-- The exchanges of a checkpoint for which the pending partitions are stored. -/
def saving (before : Coordinator) (pending : Pending) (checkpoint : Int64) : List Exchange :=
  [⟨.store [pending.snapshot checkpoint before.watermark], .ok ()⟩,
    emitted (.pendingPartitions before.label pending.size)]

variable {before : Coordinator} {checkpoint : Int64} {transcript : List Exchange}
  {pending : Pending}

theorem Stored.eq_saving (h : before.Stored checkpoint transcript (.ok ())) :
    ∃ pending, before.pending = some pending ∧
      transcript = before.saving pending checkpoint := by
  cases h with
  | stored hpending => exact ⟨_, hpending, rfl⟩

theorem Stored.eq_of_faultless {result : Except CommitError Unit}
    (h : before.Stored checkpoint transcript result) (hpending : before.pending = some pending)
    (hfailure : ∀ exchange ∈ transcript, exchange.isFailure = false) :
    result = .ok () ∧ transcript = before.saving pending checkpoint := by
  cases h with
  | uninitialized hnone => cases hnone.symm.trans hpending
  | failed cause hsome => cases hfailure _ List.mem_cons_self
  | stored hsome =>
    obtain rfl := Option.some.inj (hsome.symm.trans hpending)
    exact ⟨rfl, rfl⟩

theorem along_saving {catalog next : Catalog} {stored stored' : Option (List Snapshot)}
    (hcatalog : Along Catalog.Grants catalog (before.saving pending checkpoint) next)
    (hstored : Along Keeps stored (before.saving pending checkpoint) stored') :
    next = catalog ∧ stored' = some [pending.snapshot checkpoint before.watermark] := by
  obtain ⟨_, hsaved, _, hemitted, hend⟩ := hstored
  refine ⟨Catalog.eq_of_along_elsewhere hcatalog fun exchange hexchange ↦ ?_,
    hend.trans (hemitted.trans hsaved)⟩
  rcases List.mem_pair.1 hexchange with rfl | rfl <;> rfl

end Coordinator

theorem Operator.commitCount_after_ok (operator : Operator) (summary : Option CommitSummary)
    (coordinator : Coordinator) :
    (operator.after (.ok summary, coordinator)).commitCount =
      operator.commitCount + if summary.isSome then 1 else 0 := by
  cases summary <;> rfl

namespace Mirrors

variable {grounds : Grounds σ} {alone : Grounds τ} {start start' : Catalog} {table : Table}
  {operator other : Operator} {s s₁ : σ} {t : τ}

/-- An event that another operator in the same surroundings takes in changes nothing for the two. -/
theorem beside (h : Mirrors R grounds alone start start' table.id operator other s t)
    {services : Services (StateM σ)} {store : SnapshotStore (StateM σ)}
    (hadmits : grounds.Admits services store) {name : String} {found : Table}
    (hlookup : start.lookup name = .ok found) (htable : table.id ≠ found.id) {event : HostEvent}
    (hconcerns : event.concerns name = true) {transcript : List Exchange}
    {summary : Option CommitSummary} {before after : Coordinator}
    (hvalid : Step.Valid ⟨before, event, transcript, .ok summary, after⟩)
    (halong : Along (Took (answering services store)) s transcript s₁)
    (hunseen : (grounds.catalog s).Unseen transcript) :
    Mirrors R grounds alone start start' table.id operator other s₁ t := by
  obtain ⟨hsound, hcatalog, hstore⟩ :=
    hadmits.along h.sound halong (hvalid.isFailure_eq_false rfl)
  refine ⟨hsound, h.sound', (Catalog.tables_eq_of_along hcatalog).trans h.tables, h.tables', ?_,
    (eq_of_along_spares hstore).trans h.stored, h.coordinator, h.commitCount⟩
  have hidle (helsewhere : ∀ exchange ∈ transcript, exchange.isCatalog = false) :
      (grounds.catalog s₁).ShareAlike R table.id (alone.catalog t) :=
    Catalog.eq_of_along_elsewhere hcatalog helsewhere ▸ h.share
  cases event with
  | record report =>
    obtain rfl : report.table = name := of_decide_eq_true hconcerns
    exact (hvalid.processed rfl).succeeded.spares hcatalog
      ((Catalog.lookup_congr h.tables _).trans hlookup) hunseen.nodup hunseen.lacks htable h.share
  | watermark timestamp =>
    obtain rfl : transcript = [] := (hvalid.observed rfl).1
    exact hidle fun _ hexchange ↦ absurd hexchange List.not_mem_nil
  | checkpoint id =>
    obtain ⟨outcome, hsaved, hsummary, -⟩ := hvalid.stored rfl
    dsimp only at hsaved hsummary
    cases outcome with
    | error cause => cases hsummary
    | ok =>
      obtain ⟨pending, -, rfl⟩ := hsaved.eq_saving
      refine hidle fun exchange hexchange ↦ ?_
      rcases List.mem_pair.1 hexchange with rfl | rfl <;> rfl

variable [MonadMetrics (StateM τ)] [MonadFresh (StateM τ)] [MonadClock (StateM τ)] {t₁ : τ}

/-- An event that the operator beside others takes in without an error is taken in by the one that
works alone, unless something fails there, and both have done the same again. -/
theorem step {name : String} (h : Mirrors R grounds alone start start' table.id operator other s t)
    (hlookup : start.lookup name = .ok table) (hlookup' : start'.lookup name = .ok table)
    {services : Services (StateM σ)} {store : SnapshotStore (StateM σ)}
    {services' : Services (StateM τ)} {store' : SnapshotStore (StateM τ)}
    (hsupports : grounds.Supports services store) (hsupports' : alone.Supports services' store')
    {event : HostEvent} (hconcerns : event.concerns name = true)
    {transcript transcript' : List Exchange} {summary : Option CommitSummary}
    {result : Except CommitError (Option CommitSummary)} {after after' : Coordinator}
    (hvalid : Step.Valid ⟨operator.coordinator, event, transcript, .ok summary, after⟩)
    (hvalid' : Step.Valid ⟨other.coordinator, event, transcript', result, after'⟩)
    (halong : Along (Took (answering services store)) s transcript s₁)
    (halong' : Along (Took (answering services' store')) t transcript' t₁)
    (hunseen : (grounds.catalog s).Unseen transcript)
    (hunseen' : (alone.catalog t).Unseen transcript')
    (hfailure : ∀ exchange ∈ transcript', exchange.isFailure = false)
    {rest rest' : List Exchange}
    (hanswers : Concordant R (surveys transcript ++ rest) (surveys transcript' ++ rest')) :
    (∃ summary', result = .ok summary' ∧
      Mirrors R grounds alone start start' table.id (operator.after (.ok summary, after))
        (other.after (.ok summary', after')) s₁ t₁) ∧ Concordant R rest rest' := by
  obtain ⟨hsound, hcatalog, hstore⟩ :=
    hsupports.along h.sound halong (hvalid.isFailure_eq_false rfl)
  obtain ⟨hsound', hcatalog', hstore'⟩ := hsupports'.along h.sound' halong' hfailure
  have htables := (Catalog.tables_eq_of_along hcatalog).trans h.tables
  have htables' := (Catalog.tables_eq_of_along hcatalog').trans h.tables'
  -- what remains of each event is the share, the store, the coordinator and the commit
  have hmirrors {summary' : Option CommitSummary} (hcommits : summary'.isSome = summary.isSome)
      (hafter : after' = after) (hstored : grounds.stored s₁ = alone.stored t₁)
      (hshare : (grounds.catalog s₁).ShareAlike R table.id (alone.catalog t₁)) :
      Mirrors R grounds alone start start' table.id (operator.after (.ok summary, after))
        (other.after (.ok summary', after')) s₁ t₁ := by
    refine ⟨hsound, hsound', htables, htables', hshare, hstored, ?_, ?_⟩
    · rw [Operator.coordinator_after, Operator.coordinator_after, hafter]
    · rw [Operator.commitCount_after_ok, Operator.commitCount_after_ok, h.commitCount, hcommits]
  rw [← h.coordinator] at hvalid'
  cases event with
  | record report =>
    obtain rfl : report.table = name := of_decide_eq_true hconcerns
    have hprocessed := hvalid.processed rfl
    have hprocessed' := hvalid'.processed rfl
    obtain ⟨⟨summary', rfl, hcommits⟩, hafter, hshare, hrest⟩ := hprocessed.succeeded.mirrored
      hprocessed' hcatalog hcatalog' ((Catalog.lookup_congr h.tables _).trans hlookup)
      ((Catalog.lookup_congr h.tables' _).trans hlookup') h.share hunseen.nodup hunseen.lacks
      hunseen'.nodup hunseen'.lacks hfailure hanswers
    refine ⟨⟨summary', rfl, hmirrors hcommits hafter ?_ hshare⟩, hrest⟩
    rw [eq_of_along_keeps hstore hprocessed.any_isStore,
      eq_of_along_keeps hstore' hprocessed'.any_isStore, h.stored]
  | watermark timestamp =>
    obtain ⟨htranscript, hsummary, hafter⟩ := hvalid.observed rfl
    obtain ⟨htranscript', hsummary', hafter'⟩ := hvalid'.observed rfl
    cases htranscript
    cases htranscript'
    cases hsummary
    cases hsummary'
    have hstored : grounds.stored s₁ = alone.stored t₁ :=
      (show _ = _ from hstore).trans (h.stored.trans (show _ = _ from hstore').symm)
    refine ⟨⟨none, rfl, hmirrors rfl (hafter'.trans hafter.symm) hstored ?_⟩, hanswers⟩
    rw [show grounds.catalog s₁ = _ from hcatalog, show alone.catalog t₁ = _ from hcatalog']
    exact h.share
  | checkpoint id =>
    obtain ⟨outcome, hsaved, hsummary, hafter⟩ := hvalid.stored rfl
    obtain ⟨outcome', hsaved', hsummary', hafter'⟩ := hvalid'.stored rfl
    dsimp only at hsaved hsummary hafter hsaved' hsummary' hafter'
    cases outcome with
    | error cause => cases hsummary
    | ok =>
      cases hsummary
      obtain ⟨pending, hpending, rfl⟩ := hsaved.eq_saving
      obtain ⟨rfl, rfl⟩ := hsaved'.eq_of_faultless hpending hfailure
      cases hsummary'
      obtain ⟨hcatalog, hstore⟩ := Coordinator.along_saving hcatalog hstore
      obtain ⟨hcatalog', hstore'⟩ := Coordinator.along_saving hcatalog' hstore'
      refine ⟨⟨none, rfl, hmirrors rfl (hafter'.trans hafter.symm) (hstore.trans hstore'.symm) ?_⟩,
        hanswers⟩
      rw [hcatalog, hcatalog']
      exact h.share

end Mirrors

variable [MonadMetrics (StateM τ)] [MonadFresh (StateM τ)] [MonadClock (StateM τ)]

/-- The exchanges of an operator that works alone. -/
def Operator.transcript (services : Services (StateM σ)) (store : SnapshotStore (StateM σ))
    (events : List HostEvent) (operator : Operator) (s : σ) : List Exchange :=
  (operator.steps services store events s).flatMap Step.transcript

/-- The first exchanges are those of the first event; the others follow if it does not fail. -/
theorem Operator.transcript_cons (services : Services (StateM σ))
    (store : SnapshotStore (StateM σ)) (event : HostEvent) (rest : List HostEvent)
    (operator : Operator) (s : σ) :
    ∃ more, operator.transcript services store (event :: rest) s =
        (operator.stepOf services store event s).transcript ++ more ∧
      ∀ next after, operator.deliver services store event s = ((.ok (), next), after) →
        more = next.transcript services store rest after := by
  refine ⟨_, List.flatMap_cons, fun next after hdeliver ↦ ?_⟩
  rw [hdeliver]
  rfl

/-- What is drawn after a step is still new. -/
theorem Grounds.Bears.unseen {grounds : Grounds σ}
    {effect : Option (List Snapshot) → Exchange → Option (List Snapshot) → Prop}
    {services : Services (StateM σ)} {store : SnapshotStore (StateM σ)} {s after : σ} {step : Step}
    (h : grounds.Bears effect services store) (hsound : grounds.sound s) (hvalid : step.Valid)
    (halong : Along (Took (answering services store)) s step.transcript after)
    (hfailure : ∀ exchange ∈ step.transcript, exchange.isFailure = false) {rest : List Exchange}
    (hunseen : (grounds.catalog s).Unseen (step.transcript ++ rest)) :
    (grounds.catalog after).Unseen rest :=
  hunseen.of_balanced hvalid.balanced (h.along hsound halong hfailure).2.1

/-- Whether the operators of a router share their surroundings with that of one table: each of them
has a table of its own in the catalog and a store of its own. -/
structure Router.Shared (router : Router (StateM σ)) (grounds : Grounds σ) (start : Catalog)
    (name : String) (table : Table) : Prop where
  own : ∀ route, router.routes.find? name = some route →
    grounds.Supports route.services route.store
  others : ∀ other route, other ≠ name → router.routes.find? other = some route →
    grounds.Admits route.services route.store ∧
      ∃ found, start.lookup other = .ok found ∧ table.id ≠ found.id

/-- What the operators of a router do to themselves does not change what they share. -/
theorem Router.Shared.of_same {router after : Router (StateM σ)} {grounds : Grounds σ}
    {start : Catalog} {name : String} {table : Table} (h : router.Shared grounds start name table)
    (hsame : ∀ other current, after.routes.find? other = some current →
      ∃ earlier, router.routes.find? other = some earlier ∧ current.services = earlier.services ∧
        current.store = earlier.store) : after.Shared grounds start name table := by
  constructor
  · intro current hcurrent
    obtain ⟨earlier, hearlier, hservices, hstore⟩ := hsame name current hcurrent
    rw [hservices, hstore]
    exact h.own earlier hearlier
  · intro other current hne hcurrent
    obtain ⟨earlier, hearlier, hservices, hstore⟩ := hsame other current hcurrent
    rw [hservices, hstore]
    exact h.others other earlier hne hearlier

theorem Router.Shared.setOperator {router : Router (StateM σ)} {grounds : Grounds σ}
    {start : Catalog} {name : String} {table : Table} (h : router.Shared grounds start name table)
    {visited : String} {route : Route (StateM σ)}
    (hroute : router.routes.find? visited = some route) (operator : Operator) :
    (router.setOperator visited route operator).Shared grounds start name table := by
  refine h.of_same fun other current hcurrent ↦ ?_
  by_cases hvisited : other = visited
  · subst hvisited
    rw [find?_setOperator_self] at hcurrent
    cases hcurrent
    exact ⟨route, hroute, rfl, rfl⟩
  · rw [find?_setOperator_of_ne router hvisited] at hcurrent
    exact ⟨current, hcurrent, rfl, rfl⟩

/-- A run of a router takes an operator of one table where the operator gets on its own, in
surroundings that find the same files and do not fail. -/
theorem mirrors_of_visited {grounds : Grounds σ} {alone : Grounds τ} {start start' : Catalog}
    {name : String} {table : Table} {router after : Router (StateM σ)} {s last : σ}
    {visits : List Visit} (h : Router.Visited router s visits after last)
    (hshared : router.Shared grounds start name table)
    (hlookup : start.lookup name = .ok table) (hlookup' : start'.lookup name = .ok table)
    {services : Services (StateM τ)} {store : SnapshotStore (StateM τ)}
    (hsupports : alone.Supports services store) {route : Route (StateM σ)}
    (hroute : router.routes.find? name = some route) {other : Operator} {t : τ}
    (hmirrors : Mirrors R grounds alone start start' table.id route.operator other s t)
    (hunseen : (grounds.catalog s).Unseen (Visit.transcript visits)) {events : List HostEvent}
    (hevents : (Visit.ofTable name visits).map (fun visit ↦ visit.2.event) = events)
    (hunseen' : (alone.catalog t).Unseen (other.transcript services store events t))
    (hfailure : ∀ exchange ∈ other.transcript services store events t,
      exchange.isFailure = false)
    (hanswers : Concordant R (surveys (Visit.transcript (Visit.ofTable name visits)))
      (surveys (other.transcript services store events t))) (delivered : Nat) :
    ∃ route' other' t', after.routes.find? name = some route' ∧
      driveWith (Operator.deliver services store) delivered events other t =
        ((.ok (delivered + events.length), other'), t') ∧
      Mirrors R grounds alone start start' table.id route'.operator other' last t' := by
  induction h generalizing route other t events delivered with
  | nil router s =>
    cases hevents
    exact ⟨route, other, t, hroute, rfl, hmirrors⟩
  | @cons router after s between last visited current event operator rest hcurrent hconcerns
      hdeliver hrest ih =>
    obtain ⟨summary, coordinator, hvalid, halong, rfl⟩ := Operator.step_of_deliver hdeliver
    have hfaultless := hvalid.isFailure_eq_false rfl
    rw [Visit.transcript, List.flatMap_cons, ← Visit.transcript] at hunseen
    by_cases hvisited : visited = name
    · subst hvisited
      obtain rfl := Option.some.inj (hcurrent.symm.trans hroute)
      rw [Visit.ofTable, List.filter_cons_of_pos (by simp), ← Visit.ofTable] at hevents hanswers
      change event :: (Visit.ofTable visited rest).map (fun visit ↦ visit.2.event) = events
        at hevents
      cases hevents
      obtain ⟨more, htranscript, hmore⟩ := Operator.transcript_cons services store event
        ((Visit.ofTable visited rest).map fun visit ↦ visit.2.event) other t
      obtain ⟨result, coordinator', t₁, hvalid', halong', hdeliver'⟩ :=
        Operator.deliver_eq_step services store event other t
      rw [htranscript] at hunseen' hfailure
      rw [htranscript, Visit.transcript, List.flatMap_cons, ← Visit.transcript, surveys_append,
        surveys_append] at hanswers
      have hfailure' : ∀ exchange ∈ (other.stepOf services store event t).transcript,
          exchange.isFailure = false := fun exchange hexchange ↦
        hfailure exchange (List.mem_append_left _ hexchange)
      obtain ⟨⟨summary', rfl, hnext⟩, hrestAnswers⟩ := hmirrors.step hlookup hlookup'
        (hshared.own current hcurrent) hsupports hconcerns hvalid hvalid' halong halong'
        hunseen.of_append hunseen'.of_append hfailure' hanswers
      obtain rfl := hmore _ _ hdeliver'
      obtain ⟨route', other', t', hfind, hdrive, hlast⟩ := ih (hshared.setOperator hcurrent _)
        (Router.find?_setOperator_self router visited current _) hnext
        ((hshared.own current hcurrent).unseen hmirrors.sound hvalid halong hfaultless hunseen) rfl
        (hsupports.unseen hmirrors.sound' hvalid' halong' hfailure' hunseen')
        (fun exchange hexchange ↦ hfailure exchange (List.mem_append_right _ hexchange))
        hrestAnswers (delivered + 1)
      refine ⟨route', other', t', hfind, ?_, hlast⟩
      rw [List.length_cons, Nat.add_comm _ 1, ← Nat.add_assoc]
      exact driveWith_cons_eq_ok.2 ⟨_, _, hdeliver', hdrive⟩
    · rw [Visit.ofTable, List.filter_cons_of_neg (by simpa using hvisited), ← Visit.ofTable]
        at hevents hanswers
      obtain ⟨hadmits, found, hfound, htable⟩ := hshared.others visited current hvisited hcurrent
      have hroute' : (router.setOperator visited current
          (current.operator.after (.ok summary, coordinator))).routes.find? name = some route := by
        rw [Router.find?_setOperator_of_ne router (Ne.symm hvisited)]
        exact hroute
      exact ih (hshared.setOperator hcurrent _) hroute'
        (hmirrors.beside hadmits hfound htable hconcerns hvalid halong hunseen.of_append)
        (hadmits.unseen hmirrors.sound hvalid halong hfaultless hunseen) hevents hunseen' hfailure
        hanswers delivered

end Steps

end CommitCoordinator
