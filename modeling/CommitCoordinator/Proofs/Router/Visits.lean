import CommitCoordinator.Proofs.Collection.Lookup
import CommitCoordinator.Proofs.Coordinator.Run
import CommitCoordinator.Proofs.Dialogue.Along
import CommitCoordinator.Proofs.Storage.Replacing
import CommitCoordinator.Router.Basic
import Mathlib.Data.List.Nodup

/-!
# The visits of a router

A router delivers an event to the operators that it concerns, one after the other. A run without an
error is a sequence of visits, each of them a step of the coordinator of one table; an operator on
its own takes its steps in the same way.
-/

namespace CommitCoordinator

open Dialogue

/-- A run without an error delivers its first event without one, and then the others. -/
theorem driveWith_cons_eq_ok {σ α ε : Type} {s after : σ}
    {deliver : HostEvent → α → StateM σ (Except ε Unit × α)} {delivered total : Nat}
    {event : HostEvent} {rest : List HostEvent} {state last : α} :
    (driveWith deliver delivered (event :: rest) state : StateM σ _) s =
        ((.ok total, last), after) ↔
      ∃ next between, deliver event state s = ((.ok (), next), between) ∧
        driveWith deliver (delivered + 1) rest next between = ((.ok total, last), after) := by
  rw [driveWith, Storage.state_bind]
  rcases deliver event state s with ⟨⟨e | _, next⟩, between⟩
  · constructor
    · rintro ⟨⟩
    · rintro ⟨next, between, ⟨⟩, -⟩
  · constructor
    · exact fun h ↦ ⟨next, between, rfl, h⟩
    · rintro ⟨next, between, ⟨⟩, h⟩
      exact h

/-- A run over one part of its events is followed by a run over the other part. -/
theorem driveWith_append_eq_ok {σ α ε : Type} {s last : σ}
    {deliver : HostEvent → α → StateM σ (Except ε Unit × α)} {delivered total : Nat}
    {front back : List HostEvent} {state after : α} :
    (driveWith deliver delivered (front ++ back) state : StateM σ _) s =
        ((.ok total, after), last) ↔
      ∃ between middle, driveWith deliver delivered front state s =
          ((.ok (delivered + front.length), between), middle) ∧
        driveWith deliver (delivered + front.length) back between middle =
          ((.ok total, after), last) := by
  induction front generalizing state s delivered with
  | nil =>
    constructor
    · exact fun h ↦ ⟨state, s, rfl, h⟩
    · rintro ⟨between, middle, hnil, h⟩
      cases hnil
      exact h
  | cons event rest ih =>
    have hcount : delivered + (event :: rest).length = delivered + 1 + rest.length := by
      rw [List.length_cons]
      omega
    simp only [List.cons_append, driveWith_cons_eq_ok, ih, hcount]
    constructor
    · rintro ⟨next, second, hdeliver, between, middle, hrest, h⟩
      exact ⟨between, middle, ⟨next, second, hdeliver, hrest⟩, h⟩
    · rintro ⟨between, middle, ⟨next, second, hdeliver, hrest⟩, h⟩
      exact ⟨next, second, hdeliver, between, middle, hrest, h⟩

/-- A run without an error delivers all of its events. -/
theorem total_of_driveWith {σ α ε : Type} {s last : σ}
    {deliver : HostEvent → α → StateM σ (Except ε Unit × α)} {delivered total : Nat}
    {events : List HostEvent} {state after : α}
    (h : (driveWith deliver delivered events state : StateM σ _) s = ((.ok total, after), last)) :
    total = delivered + events.length := by
  rw [← List.append_nil events] at h
  obtain ⟨_, _, -, hnil⟩ := driveWith_append_eq_ok.1 h
  cases hnil
  rfl

section Steps

variable {σ : Type} [MonadMetrics (StateM σ)] [MonadFresh (StateM σ)] [MonadClock (StateM σ)]

namespace Operator

variable (services : Services (StateM σ)) (store : SnapshotStore (StateM σ))

/-- The step that an operator takes from a state when an event is delivered. -/
def stepOf (event : HostEvent) (operator : Operator) (s : σ) : Step :=
  let dialogue := operator.coordinator.handle Dialogue.services Dialogue.store event
  let (result, after) := (interpret (answering services store) dialogue s).1
  ⟨operator.coordinator, event, record (answering services store) dialogue s, result, after⟩

/-- The steps that an operator takes from a state, up to the first event that fails. -/
def steps : List HostEvent → Operator → σ → List Step
  | [], _, _ => []
  | event :: rest, operator, s =>
    operator.stepOf services store event s ::
      match operator.deliver services store event s with
      | ((.ok (), operator), s) => steps rest operator s
      | ((.error _, _), _) => []

/-- A delivery does what its step says. -/
theorem deliver_eq_step (event : HostEvent) (operator : Operator) (s : σ) :
    ∃ result coordinator after,
      Step.Valid ⟨operator.coordinator, event,
        (operator.stepOf services store event s).transcript, result, coordinator⟩ ∧
      Along (Took (answering services store)) s
        (operator.stepOf services store event s).transcript after ∧
      operator.deliver services store event s =
        ((result.map fun _ ↦ (), operator.after (result, coordinator)), after) := by
  let dialogue := operator.coordinator.handle Dialogue.services Dialogue.store event
  obtain ⟨hyields, halong⟩ := yields_record (answering services store) dialogue s
  refine ⟨_, _, _, hyields, halong, ?_⟩
  rw [deliver_eq_handle, ← interpret_handle]
  rfl

variable {services store} in
/-- A delivery without an error is a step without an error. -/
theorem step_of_deliver {event : HostEvent} {operator next : Operator} {s after : σ}
    (h : operator.deliver services store event s = ((.ok (), next), after)) :
    ∃ summary coordinator,
      Step.Valid ⟨operator.coordinator, event,
        (operator.stepOf services store event s).transcript, .ok summary, coordinator⟩ ∧
      Along (Took (answering services store)) s
        (operator.stepOf services store event s).transcript after ∧
      next = operator.after (.ok summary, coordinator) := by
  obtain ⟨result, coordinator, last, hvalid, halong, hdeliver⟩ :=
    deliver_eq_step services store event operator s
  rw [hdeliver] at h
  cases result with
  | error e => cases h
  | ok summary =>
    cases h
    exact ⟨summary, coordinator, hvalid, halong, rfl⟩

variable {services store} in
/-- A delivery without an error is its step, which has no error either. -/
theorem valid_of_deliver {event : HostEvent} {operator next : Operator} {s after : σ}
    (h : operator.deliver services store event s = ((.ok (), next), after)) :
    ∃ summary, (operator.stepOf services store event s).Valid ∧
      (operator.stepOf services store event s).result = .ok summary ∧
      Along (Took (answering services store)) s
        (operator.stepOf services store event s).transcript after ∧
      next = operator.after (.ok summary, (operator.stepOf services store event s).after) := by
  obtain ⟨summary, coordinator, hvalid, halong, rfl⟩ := step_of_deliver h
  have hown : (operator.stepOf services store event s).Valid :=
    (yields_record (answering services store) _ s).1
  obtain ⟨hresult, hafter⟩ := Prod.mk.inj (hown.unique hvalid)
  exact ⟨summary, hown, hresult, halong, by rw [hafter]⟩

end Operator

end Steps

/-! ## Runs of a router -/

/-- A step of the coordinator of a table, under the name of the table. -/
abbrev Visit := String × Step

namespace Visit

/-- All exchanges of visits. -/
def transcript (visits : List Visit) : List Exchange :=
  visits.flatMap fun visit ↦ visit.2.transcript

/-- The visits to one table. -/
def ofTable (name : String) (visits : List Visit) : List Visit :=
  visits.filter (·.1 = name)

end Visit

/-- Whether an event is delivered to a table. -/
def HostEvent.concerns (name : String) : HostEvent → Bool
  | .record report => report.table = name
  | _ => true

namespace Router

section Routes

variable {m : Type → Type} {router : Router m} {name : String}

theorem find?_setOperator_self (router : Router m) (name : String) (route : Route m)
    (operator : Operator) :
    (router.setOperator name route operator).routes.find? name = some { route with operator } :=
  SequencedMap.find?_insert_self _ _ _

theorem find?_setOperator_of_ne (router : Router m) {other : String} (h : other ≠ name)
    (route : Route m) (operator : Operator) :
    (router.setOperator name route operator).routes.find? other = router.routes.find? other :=
  SequencedMap.find?_insert_of_ne _ _ h

theorem mem_keys_of_find? {route : Route m} (h : router.routes.find? name = some route) :
    name ∈ router.routes.keys := by
  have hcontains := router.routes.contains_eq_isSome name
  rw [h] at hcontains
  exact of_decide_eq_true hcontains

theorem keys_setOperator {route : Route m} (h : router.routes.find? name = some route)
    (other : Route m) (operator : Operator) :
    (router.setOperator name other operator).routes.keys = router.routes.keys := by
  have hmem : name ∈ router.routes.entries.map Prod.fst := mem_keys_of_find? h
  rw [setOperator, SequencedMap.keys, SequencedMap.insert, dif_pos hmem]
  exact SequencedMap.keys_replaceValue _ _ _

/-- The routes that come later are still there when the first operator has been replaced. -/
theorem find?_of_later {route : Route m} {rest : List (String × Route m)}
    (hroutes : ∀ entry ∈ (name, route) :: rest, router.routes.find? entry.1 = some entry.2)
    (hnew : name ∉ rest.map Prod.fst) (operator : Operator) :
    ∀ entry ∈ rest,
      (router.setOperator name route operator).routes.find? entry.1 = some entry.2 := by
  intro entry hentry
  have hne : entry.1 ≠ name := fun heq ↦ hnew (heq ▸ List.mem_map.2 ⟨entry, hentry, rfl⟩)
  rw [find?_setOperator_of_ne router hne]
  exact hroutes entry (List.mem_cons_of_mem _ hentry)

end Routes

/-- A round without an error takes its first route without one, and then the others. -/
theorem forEach_cons_eq_ok {σ : Type} {s last : σ}
    {step : Route (StateM σ) → StateM σ (Except CommitError Unit × Operator)}
    {router after : Router (StateM σ)} {name : String} {route : Route (StateM σ)}
    {rest : List (String × Route (StateM σ))} :
    (forEach step ((name, route) :: rest) router : StateM σ _) s = ((.ok (), after), last) ↔
      ∃ operator between, step route s = ((.ok (), operator), between) ∧
        (forEach step rest (router.setOperator name route operator) : StateM σ _) between =
          ((.ok (), after), last) := by
  rw [forEach, Storage.state_bind]
  rcases step route s with ⟨⟨e | _, operator⟩, between⟩
  · constructor
    · rintro ⟨⟩
    · rintro ⟨operator, between, ⟨⟩, -⟩
  · constructor
    · exact fun h ↦ ⟨operator, between, rfl, h⟩
    · rintro ⟨operator, between, ⟨⟩, h⟩
      exact h

section Visits

variable {σ : Type} [MonadMetrics (StateM σ)] [MonadFresh (StateM σ)] [MonadClock (StateM σ)]

/-- The visits along some routes, up to the first that fails. -/
def round (event : HostEvent) : List (String × Route (StateM σ)) → σ → List Visit
  | [], _ => []
  | (name, route) :: rest, s =>
    (name, route.operator.stepOf route.services route.store event s) ::
      match Route.deliver event route s with
      | ((.ok (), _), s) => round event rest s
      | ((.error _, _), _) => []

/-- The routes that an event takes. -/
def recipients (event : HostEvent) (router : Router (StateM σ)) :
    List (String × Route (StateM σ)) :=
  match event with
  | .record report => ((router.routes.find? report.table).map (report.table, ·)).toList
  | _ => router.routes.entries

/-- The visits of a run, up to the first event that fails. -/
def visits : List HostEvent → Router (StateM σ) → σ → List Visit
  | [], _, _ => []
  | event :: rest, router, s =>
    round event (router.recipients event) s ++
      match router.deliver event s with
      | ((.ok (), router), s) => visits rest router s
      | ((.error _, _), _) => []

/-- Whether visits without an error lead a router and the state from one end to the other. -/
inductive Visited : Router (StateM σ) → σ → List Visit → Router (StateM σ) → σ → Prop where
  | nil (router : Router (StateM σ)) (s : σ) : Visited router s [] router s
  | cons {router after : Router (StateM σ)} {s between last : σ} {name : String}
      {route : Route (StateM σ)} {event : HostEvent} {operator : Operator} {rest : List Visit}
      (hroute : router.routes.find? name = some route) (hevent : event.concerns name = true)
      (hdeliver : Route.deliver event route s = ((.ok (), operator), between))
      (hrest : Visited (router.setOperator name route operator) between rest after last) :
      Visited router s
        ((name, route.operator.stepOf route.services route.store event s) :: rest) after last

theorem Visited.append {router between after : Router (StateM σ)} {s middle last : σ}
    {front back : List Visit} (hfront : Visited router s front between middle)
    (hback : Visited between middle back after last) :
    Visited router s (front ++ back) after last := by
  induction hfront with
  | nil => exact hback
  | cons hroute hevent hdeliver _ ih => exact .cons hroute hevent hdeliver (ih hback)

theorem Visited.keys_eq {router after : Router (StateM σ)} {s last : σ} {visits : List Visit}
    (h : Visited router s visits after last) : after.routes.keys = router.routes.keys := by
  induction h with
  | nil => rfl
  | cons hroute _ _ _ ih => rw [ih, keys_setOperator hroute]

/-- One route after the other is a sequence of visits. -/
theorem visited_of_forEach {event : HostEvent} {routes : List (String × Route (StateM σ))}
    {router after : Router (StateM σ)} {s last : σ}
    (hroutes : ∀ entry ∈ routes, router.routes.find? entry.1 = some entry.2)
    (hevent : ∀ entry ∈ routes, event.concerns entry.1 = true)
    (hnodup : (routes.map Prod.fst).Nodup)
    (h : (forEach (Route.deliver event) routes router : StateM σ _) s = ((.ok (), after), last)) :
    Visited router s (round event routes s) after last ∧
      (round event routes s).map (fun visit ↦ (visit.1, visit.2.event)) =
        (routes.map Prod.fst).map (·, event) := by
  induction routes generalizing router s with
  | nil =>
    cases h
    exact ⟨.nil _ _, rfl⟩
  | cons entry rest ih =>
    obtain ⟨name, route⟩ := entry
    obtain ⟨hnew, hnodup⟩ := List.nodup_cons.1 hnodup
    obtain ⟨operator, between, hdeliver, h⟩ := forEach_cons_eq_ok.1 h
    rw [round, hdeliver]
    obtain ⟨hvisited, hnames⟩ := ih (find?_of_later hroutes hnew operator)
      (fun entry hentry ↦ hevent entry (List.mem_cons_of_mem _ hentry)) hnodup h
    refine ⟨.cons (hroutes _ List.mem_cons_self) (hevent _ List.mem_cons_self) hdeliver
      hvisited, ?_⟩
    exact congrArg ((name, event) :: ·) hnames

theorem events_ofTable (name : String) (visits : List Visit) :
    (Visit.ofTable name visits).map (fun visit ↦ visit.2.event) =
      ((visits.map fun visit ↦ (visit.1, visit.2.event)).filter (·.1 = name)).map Prod.snd := by
  rw [List.filter_map, List.map_map]
  rfl

/-- A table is visited once in a round along different routes if it has one of them. -/
theorem events_ofTable_round {event : HostEvent} {names : List String} (hnodup : names.Nodup)
    {visits : List Visit}
    (h : visits.map (fun visit ↦ (visit.1, visit.2.event)) = names.map (·, event))
    (name : String) :
    (Visit.ofTable name visits).map (fun visit ↦ visit.2.event) =
      if name ∈ names then [event] else [] := by
  have hfilter : (names.map (·, event)).filter (·.1 = name) =
      (names.filter (· = name)).map (·, event) := List.filter_map
  rw [events_ofTable, h, hfilter, List.map_map]
  split
  · next hmem =>
    rw [List.filter_eq, List.count_eq_one_of_mem hnodup hmem]
    rfl
  · next hmem =>
    rw [List.filter_eq, List.count_eq_zero_of_not_mem hmem]
    rfl

/-- An event that is delivered without an error visits each table that it concerns, once. -/
theorem visited_of_deliver {event : HostEvent} {router after : Router (StateM σ)} {s last : σ}
    (h : (router.deliver event : StateM σ _) s = ((.ok (), after), last)) :
    Visited router s (round event (router.recipients event) s) after last ∧
      ∀ name ∈ router.routes.keys,
        (Visit.ofTable name (round event (router.recipients event) s)).map
          (fun visit ↦ visit.2.event) = [event].filter (·.concerns name) := by
  have hentries : ∀ entry ∈ router.routes.entries, router.routes.find? entry.1 = some entry.2 :=
    fun _ hentry ↦ SequencedMap.find?_eq_some_iff.2 hentry
  cases event with
  | record report =>
    rw [deliver] at h
    rw [recipients]
    cases hroute : router.routes.find? report.table with
    | none =>
      rw [hroute] at h
      cases h
    | some route =>
      rw [hroute] at h
      obtain ⟨hvisited, hnames⟩ := visited_of_forEach (by simpa using hroute)
        (by simp [HostEvent.concerns]) (by simp) h
      refine ⟨hvisited, fun name _ ↦ ?_⟩
      refine (events_ofTable_round (List.nodup_singleton report.table) hnames name).trans ?_
      by_cases htable : report.table = name
      · simp [HostEvent.concerns, htable]
      · simp [HostEvent.concerns, htable, Ne.symm htable]
  | watermark timestamp =>
    obtain ⟨hvisited, hnames⟩ :=
      visited_of_forEach hentries (fun _ _ ↦ rfl) router.routes.nodup h
    refine ⟨hvisited, fun name hname ↦ ?_⟩
    exact (events_ofTable_round router.routes.nodup hnames name).trans (if_pos hname)
  | checkpoint id =>
    obtain ⟨hvisited, hnames⟩ :=
      visited_of_forEach hentries (fun _ _ ↦ rfl) router.routes.nodup h
    refine ⟨hvisited, fun name hname ↦ ?_⟩
    exact (events_ofTable_round router.routes.nodup hnames name).trans (if_pos hname)

/-- A run without an error visits each table with the events that concern it, in their order. -/
theorem visited_of_drive {events : List HostEvent} {router after : Router (StateM σ)}
    {s last : σ} {delivered total : Nat}
    (h : (driveWith deliver delivered events router : StateM σ _) s =
      ((.ok total, after), last)) :
    Visited router s (router.visits events s) after last ∧
      ∀ name ∈ router.routes.keys,
        (Visit.ofTable name (router.visits events s)).map (fun visit ↦ visit.2.event) =
          events.filter (·.concerns name) := by
  induction events generalizing router s delivered with
  | nil =>
    cases h
    exact ⟨.nil _ _, fun _ _ ↦ rfl⟩
  | cons event rest ih =>
    obtain ⟨next, between, hdeliver, h⟩ := driveWith_cons_eq_ok.1 h
    rw [visits, hdeliver]
    obtain ⟨hround, hfirst⟩ := visited_of_deliver hdeliver
    obtain ⟨hvisited, hlater⟩ := ih h
    refine ⟨hround.append hvisited, fun name hname ↦ ?_⟩
    have hsplit : (event :: rest).filter (·.concerns name) =
        [event].filter (·.concerns name) ++ rest.filter (·.concerns name) :=
      List.filter_append [event] rest
    rw [Visit.ofTable, List.filter_append, ← Visit.ofTable, ← Visit.ofTable, List.map_append,
      hsplit, hfirst name hname, hlater name (hround.keys_eq ▸ hname)]

end Visits

end Router

end CommitCoordinator
