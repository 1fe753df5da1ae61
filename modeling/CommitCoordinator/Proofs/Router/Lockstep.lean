import CommitCoordinator.Proofs.Router.Projection
import Mathlib.Data.List.Forall2

/-!
# Runs in lockstep

Two surroundings may answer calls alike as long as their states stay in some relation. Operators,
and routers with them, then do the same in both: they make the same calls, take the same steps and
come to the same results. So a run among files can be followed in memory.
-/

namespace CommitCoordinator

open Dialogue Storage

instance (call : Call) : DecidableEq call.Answer :=
  match call with
  | .lookup _ => inferInstanceAs (DecidableEq (Except CatalogError Table))
  | .append _ _ _ => inferInstanceAs (DecidableEq (Except CatalogError Bool))
  | .insert _ => inferInstanceAs (DecidableEq (Except CatalogError Unit))
  | .list _ => inferInstanceAs (DecidableEq (Except StorageError (List Entry)))
  | .load => inferInstanceAs (DecidableEq (Except StateError (List Snapshot)))
  | .store _ => inferInstanceAs (DecidableEq (Except StateError Unit))
  | .emit _ => inferInstanceAs (DecidableEq Unit)
  | .freshId => inferInstanceAs (DecidableEq Uuid)
  | .currentTime => inferInstanceAs (DecidableEq Int64)

deriving instance DecidableEq for Exchange

variable {σ τ : Type} {like : σ → τ → Prop} {s : σ} {t : τ}

/-- Whether two actions come to the same value, and to states that are still related. -/
structure EndAlike {α : Type} (like : σ → τ → Prop) (outcome : α × σ) (outcome' : α × τ) :
    Prop where
  value : outcome.1 = outcome'.1
  state : like outcome.2 outcome'.2

theorem EndAlike.of_eq {α : Type} {outcome : α × σ} {outcome' : α × τ} {value : α} {after : σ}
    (h : outcome = (value, after)) (hvalue : value = outcome'.1) (hstate : like after outcome'.2) :
    EndAlike like outcome outcome' :=
  h ▸ ⟨hvalue, hstate⟩

/-! ## Dialogues -/

section Answers

variable {asked : Call → Prop} {answer : (call : Call) → StateM σ call.Answer}
  {answer' : (call : Call) → StateM τ call.Answer}

/-- Whether the calls that are asked get the same answers in related states. -/
def AnswersAlike (like : σ → τ → Prop) (asked : Call → Prop)
    (answer : (call : Call) → StateM σ call.Answer)
    (answer' : (call : Call) → StateM τ call.Answer) : Prop :=
  ∀ call s t, asked call → like s t → EndAlike like (answer call s) (answer' call t)

/-- A dialogue that asks such calls only has the same exchanges in both surroundings. -/
theorem AnswersAlike.interpret {α : Type} (h : AnswersAlike like asked answer answer')
    (x : Dialogue α) (hlike : like s t)
    (hasked : ∀ exchange ∈ record answer' x t, asked exchange.call) :
    record answer x s = record answer' x t ∧
      EndAlike like (interpret answer x s) (interpret answer' x t) := by
  induction x generalizing s t with
  | done value => exact ⟨rfl, rfl, hlike⟩
  | ask call next ih =>
    obtain ⟨hcall, hrest⟩ := List.forall_mem_cons.1 hasked
    obtain ⟨hvalue, hstate⟩ := h call s t hcall hlike
    have hrecord : record answer (.ask call next) s = ⟨call, (answer call s).1⟩ ::
        record answer (next (answer call s).1) (answer call s).2 := rfl
    have hinterpret : interpret answer (.ask call next) s =
        interpret answer (next (answer call s).1) (answer call s).2 := rfl
    rw [hrecord, hinterpret, hvalue]
    obtain ⟨htranscript, hend⟩ := ih (answer' call t).1 hstate hrest
    exact ⟨congrArg _ htranscript, hend⟩

end Answers

variable [MonadMetrics (StateM σ)] [MonadFresh (StateM σ)] [MonadClock (StateM σ)]
  [MonadMetrics (StateM τ)] [MonadFresh (StateM τ)] [MonadClock (StateM τ)]

/-! ## Operators -/

namespace Operator

variable {asked : Call → Prop} {services : Services (StateM σ)} {store : SnapshotStore (StateM σ)}
  {services' : Services (StateM τ)} {store' : SnapshotStore (StateM τ)}
  (h : AnswersAlike like asked (answering services store) (answering services' store'))

include h

/-- An operator takes the same step in both surroundings. -/
theorem deliver_alike (event : HostEvent) (operator : Operator) (hlike : like s t)
    (hasked : ∀ exchange ∈ (operator.stepOf services' store' event t).transcript,
      asked exchange.call) :
    operator.stepOf services store event s = operator.stepOf services' store' event t ∧
      EndAlike like (operator.deliver services store event s)
        (operator.deliver services' store' event t) := by
  obtain ⟨htranscript, hvalue, hstate⟩ := h.interpret _ hlike hasked
  constructor
  · rw [stepOf, stepOf, htranscript, hvalue]
  · rw [deliver_eq_handle, deliver_eq_handle,
      ← interpret_handle services store event operator.coordinator,
      ← interpret_handle services' store' event operator.coordinator]
    exact ⟨congrArg (fun outcome ↦ (outcome.1.map fun _ ↦ (), operator.after outcome)) hvalue,
      hstate⟩

/-- And so it does with one event after the other. -/
theorem drive_alike (events : List HostEvent) (operator : Operator) (delivered : Nat)
    (hlike : like s t)
    (hasked : ∀ exchange ∈ operator.transcript services' store' events t, asked exchange.call) :
    operator.transcript services store events s = operator.transcript services' store' events t ∧
      EndAlike like (driveWith (deliver services store) delivered events operator s)
        (driveWith (deliver services' store') delivered events operator t) := by
  induction events generalizing operator s t delivered with
  | nil => exact ⟨rfl, rfl, hlike⟩
  | cons event rest ih =>
    have hfirst : ∀ exchange ∈ (operator.stepOf services' store' event t).transcript,
        asked exchange.call :=
      fun exchange hexchange ↦
        hasked exchange (List.mem_flatMap.2 ⟨_, List.mem_cons_self, hexchange⟩)
    obtain ⟨hstep, hvalue, hstate⟩ := deliver_alike h event operator hlike hfirst
    rw [transcript, transcript, steps, steps, driveWith, driveWith, Storage.state_bind,
      Storage.state_bind, hstep]
    rw [transcript, steps] at hasked
    revert hvalue hstate hasked
    generalize operator.deliver services store event s = outcome
    generalize operator.deliver services' store' event t = outcome'
    obtain ⟨⟨result, next⟩, after⟩ := outcome
    obtain ⟨⟨result', next'⟩, after'⟩ := outcome'
    rintro hasked ⟨⟩ hstate
    cases result with
    | error e => exact ⟨rfl, rfl, hstate⟩
    | ok =>
      obtain ⟨hlater, hend⟩ := ih next (delivered + 1) hstate fun exchange hexchange ↦
        hasked exchange (List.mem_append_right _ hexchange)
      exact ⟨congrArg ((operator.stepOf services' store' event t).transcript ++ ·) hlater, hend⟩

end Operator

/-! ## Routers -/

/-- Whether two routes are those of one table, each in its own surroundings. -/
structure Route.Alike (like : σ → τ → Prop) (asked : Call → Prop) (route : Route (StateM σ))
    (route' : Route (StateM τ)) : Prop where
  key : route.key = route'.key
  operator : route.operator = route'.operator
  answers : AnswersAlike like asked (answering route.services route.store)
    (answering route'.services route'.store)

/-- Whether routes are those of the same tables in the same order. -/
def RoutesAlike (like : σ → τ → Prop) (asked : String → Call → Prop) :
    List (String × Route (StateM σ)) → List (String × Route (StateM τ)) → Prop :=
  List.Forall₂ fun entry entry' ↦
    entry.1 = entry'.1 ∧ Route.Alike like (asked entry.1) entry.2 entry'.2

namespace Router

variable {asked : String → Call → Prop} {router : Router (StateM σ)} {router' : Router (StateM τ)}
  {entries : List (String × Route (StateM σ))} {entries' : List (String × Route (StateM τ))}
  {name : String} {route : Route (StateM σ)} {route' : Route (StateM τ)}

theorem keys_eq_of_alike (h : RoutesAlike like asked entries entries') :
    entries.map Prod.fst = entries'.map Prod.fst := by
  induction h with
  | nil => rfl
  | cons hhead _ ih => rw [List.map_cons, List.map_cons, hhead.1, ih]

theorem find?_alike (h : RoutesAlike like asked router.routes.entries router'.routes.entries)
    (name : String) : Option.Rel (Route.Alike like (asked name)) (router.routes.find? name)
      (router'.routes.find? name) := by
  have hfind {entries : List (String × Route (StateM σ))}
      {entries' : List (String × Route (StateM τ))} (h : RoutesAlike like asked entries entries') :
      Option.Rel (Route.Alike like (asked name))
        ((entries.find? fun entry ↦ entry.1 = name).map Prod.snd)
        ((entries'.find? fun entry ↦ entry.1 = name).map Prod.snd) := by
    induction h with
    | nil => exact .none
    | @cons entry entry' rest rest' hhead _ ih =>
      obtain ⟨hname, hroute⟩ := hhead
      by_cases hfound : entry.1 = name
      · rw [List.find?_cons_of_pos (by simpa using hfound),
          List.find?_cons_of_pos (by simpa using hname ▸ hfound)]
        exact .some (hfound ▸ hroute)
      · rw [List.find?_cons_of_neg (by simpa using hfound),
          List.find?_cons_of_neg (by simpa using hname ▸ hfound)]
        exact ih
  exact hfind h

theorem setOperator_alike (h : RoutesAlike like asked router.routes.entries router'.routes.entries)
    (hroute : route.Alike like (asked name) route') (operator : Operator) :
    RoutesAlike like asked (router.setOperator name route operator).routes.entries
      (router'.setOperator name route' operator).routes.entries := by
  have hnext : Route.Alike like (asked name) { route with operator } { route' with operator } :=
    ⟨hroute.key, rfl, hroute.answers⟩
  unfold setOperator SequencedMap.insert
  by_cases hmem : name ∈ router.routes.entries.map Prod.fst
  · rw [dif_pos hmem, dif_pos (keys_eq_of_alike h ▸ hmem)]
    refine List.forall₂_map_left_iff.2 (List.forall₂_map_right_iff.2 (h.imp ?_))
    intro entry entry' ⟨hname, hentry⟩
    by_cases hfound : entry.1 = name
    · rw [if_pos hfound, if_pos (hname ▸ hfound)]
      exact ⟨rfl, hnext⟩
    · rw [if_neg hfound, if_neg (hname ▸ hfound)]
      exact ⟨hname, hentry⟩
  · rw [dif_neg hmem, dif_neg (keys_eq_of_alike h ▸ hmem)]
    exact List.rel_append h (.cons ⟨rfl, hnext⟩ .nil)

/-- Whether two routers come to the same result, with the same tables, and to related states. -/
structure EndAlike {ρ : Type} (like : σ → τ → Prop) (asked : String → Call → Prop)
    (outcome : (ρ × Router (StateM σ)) × σ) (outcome' : (ρ × Router (StateM τ)) × τ) : Prop where
  result : outcome.1.1 = outcome'.1.1
  routes : RoutesAlike like asked outcome.1.2.routes.entries outcome'.1.2.routes.entries
  state : like outcome.2 outcome'.2

/-- Routers take the same round along routes of the same tables. -/
theorem forEach_alike (event : HostEvent) (hentries : RoutesAlike like asked entries entries')
    (hrouter : RoutesAlike like asked router.routes.entries router'.routes.entries)
    (hlike : like s t)
    (hasked : ∀ visit ∈ round event entries' t, ∀ exchange ∈ visit.2.transcript,
      asked visit.1 exchange.call) :
    round event entries s = round event entries' t ∧
      EndAlike like asked (forEach (Route.deliver event) entries router s)
        (forEach (Route.deliver event) entries' router' t) := by
  induction hentries generalizing router router' s t with
  | nil => exact ⟨rfl, rfl, hrouter, hlike⟩
  | @cons entry entry' rest rest' hhead hrest ih =>
    obtain ⟨name, route⟩ := entry
    obtain ⟨name', route'⟩ := entry'
    obtain ⟨rfl, hroute⟩ := hhead
    obtain ⟨hfirst, hlater⟩ := List.forall_mem_cons.1 hasked
    obtain ⟨hstep, hdeliver⟩ :=
      Operator.deliver_alike hroute.answers event route'.operator hlike hfirst
    rw [← hroute.operator] at hstep hdeliver
    rw [round, round, forEach, forEach, Storage.state_bind, Storage.state_bind, Route.deliver,
      Route.deliver, hstep, ← hroute.operator]
    rw [Route.deliver, ← hroute.operator] at hlater
    generalize route.operator.deliver route.services route.store event s = outcome at hdeliver ⊢
    generalize route.operator.deliver route'.services route'.store event t = outcome'
      at hdeliver hlater ⊢
    obtain ⟨⟨result, operator⟩, after⟩ := outcome
    obtain ⟨⟨result', operator'⟩, after'⟩ := outcome'
    obtain ⟨⟨⟩, hstate⟩ := hdeliver
    have hnext := setOperator_alike hrouter hroute operator
    cases result with
    | error e => exact ⟨rfl, by rw [hroute.key]; rfl, hnext, hstate⟩
    | ok =>
      obtain ⟨hvisits, hend⟩ := ih hnext hstate hlater
      exact ⟨congrArg _ hvisits, hend⟩

/-- Routers deliver an event alike. -/
theorem deliver_alike (event : HostEvent)
    (hrouter : RoutesAlike like asked router.routes.entries router'.routes.entries)
    (hlike : like s t)
    (hasked : ∀ visit ∈ round event (router'.recipients event) t,
      ∀ exchange ∈ visit.2.transcript, asked visit.1 exchange.call) :
    round event (router.recipients event) s = round event (router'.recipients event) t ∧
      EndAlike like asked (router.deliver event s) (router'.deliver event t) := by
  cases event with
  | record report =>
    have hfind := find?_alike hrouter report.table
    rw [recipients] at hasked
    rw [recipients, recipients, deliver, deliver]
    generalize router.routes.find? report.table = found at hfind ⊢
    generalize router'.routes.find? report.table = found' at hfind hasked ⊢
    cases hfind with
    | none => exact ⟨rfl, rfl, hrouter, hlike⟩
    | some hroute => exact forEach_alike _ (.cons ⟨rfl, hroute⟩ .nil) hrouter hlike hasked
  | watermark timestamp => exact forEach_alike _ hrouter hrouter hlike hasked
  | checkpoint id => exact forEach_alike _ hrouter hrouter hlike hasked

/-- Routers take the same visits and come to the same end. -/
theorem drive_alike (events : List HostEvent) (delivered : Nat)
    (hrouter : RoutesAlike like asked router.routes.entries router'.routes.entries)
    (hlike : like s t)
    (hasked : ∀ visit ∈ router'.visits events t, ∀ exchange ∈ visit.2.transcript,
      asked visit.1 exchange.call) :
    router.visits events s = router'.visits events t ∧
      EndAlike like asked (driveWith deliver delivered events router s)
        (driveWith deliver delivered events router' t) := by
  induction events generalizing router router' s t delivered with
  | nil => exact ⟨rfl, rfl, hrouter, hlike⟩
  | cons event rest ih =>
    rw [visits] at hasked
    obtain ⟨hfirst, hlater⟩ := List.forall_mem_append.1 hasked
    obtain ⟨hvisits, hdeliver⟩ := deliver_alike event hrouter hlike hfirst
    rw [visits, visits, driveWith, driveWith, Storage.state_bind, Storage.state_bind, hvisits]
    generalize router.deliver event s = outcome at hdeliver ⊢
    generalize router'.deliver event t = outcome' at hdeliver hlater ⊢
    obtain ⟨⟨result, next⟩, after⟩ := outcome
    obtain ⟨⟨result', next'⟩, after'⟩ := outcome'
    obtain ⟨⟨⟩, hroutes, hstate⟩ := hdeliver
    cases result with
    | error e => exact ⟨rfl, rfl, hroutes, hstate⟩
    | ok =>
      obtain ⟨hmore, hend⟩ := ih (delivered + 1) hroutes hstate hlater
      exact ⟨congrArg _ hmore, hend⟩

end Router

end CommitCoordinator
