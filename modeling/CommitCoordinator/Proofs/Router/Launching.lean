import CommitCoordinator.Proofs.Router.Projection

/-!
# Launching the operators of a router

A launch asks the store alone, if at all, and so changes nothing around an operator. What the
operator begins with depends on what its store holds, whenever its turn comes.
-/

namespace CommitCoordinator

open Dialogue

variable {σ : Type} [MonadMetrics (StateM σ)] [MonadFresh (StateM σ)] [MonadClock (StateM σ)]

/-- A launch does what its transcript says. -/
theorem Operator.launch_eq (services : Services (StateM σ)) (store : SnapshotStore (StateM σ))
    (restored : Bool) (operator : Operator) (s : σ) :
    ∃ transcript result coordinator after,
      operator.coordinator.Launched restored transcript result coordinator ∧
      Along (Took (answering services store)) s transcript after ∧
      operator.launch store restored s = ((result, { operator with coordinator }), after) := by
  obtain ⟨hyields, halong⟩ := yields_record (answering services store)
    (operator.coordinator.launch Dialogue.store restored) s
  refine ⟨_, _, _, _, Coordinator.launched_of_yields hyields, halong, ?_⟩
  rw [interpret_launch]
  rfl

/-- The exchanges of a launch that succeeds go neither to the catalog nor change the store. -/
theorem Coordinator.Launched.eq_started {before after : Coordinator} {restored : Bool}
    {transcript : List Exchange} (h : before.Launched restored transcript (.ok ()) after) :
    ∃ stored, (restored = false → stored = []) ∧ after = before.start (.restore stored) ∧
      transcript = (if restored then [⟨.load, .ok stored⟩] else []) ++
        [emitted (.pendingPartitions before.label (Pending.restore stored).size)] := by
  cases h with
  | started stored hstored => exact ⟨stored, hstored, rfl, rfl⟩

/-- Whether only what is written to a store changes it. -/
def Lasting (effect : Option (List Snapshot) → Exchange → Option (List Snapshot) → Prop) : Prop :=
  ∀ before exchange after, exchange.isStore = false → effect before exchange after → after = before

theorem lasting_keeps : Lasting Keeps :=
  fun _ _ _ hstore hkeeps ↦ hkeeps.spares hstore

theorem lasting_spares : Lasting Spares :=
  fun _ _ _ _ hspares ↦ hspares

namespace Grounds

variable {grounds : Grounds σ}
  {effect : Option (List Snapshot) → Exchange → Option (List Snapshot) → Prop}
  {services : Services (StateM σ)} {store : SnapshotStore (StateM σ)} {s after : σ}
  {restored : Bool} {operator next : Operator}

/-- A launch that succeeds leaves the surroundings as they are. -/
theorem Bears.of_launch (h : grounds.Bears effect services store) (hlasting : Lasting effect)
    (hsound : grounds.sound s)
    (hlaunch : operator.launch store restored s = ((.ok (), next), after)) :
    grounds.sound after ∧ grounds.catalog after = grounds.catalog s ∧
      grounds.stored after = grounds.stored s := by
  obtain ⟨transcript, result, coordinator, last, hlaunched, halong, hrun⟩ :=
    Operator.launch_eq services store restored operator s
  cases hrun.symm.trans hlaunch
  obtain ⟨stored, -, -, rfl⟩ := hlaunched.eq_started
  have hquiet : ∀ exchange ∈ (if restored then [(⟨.load, .ok stored⟩ : Exchange)] else []) ++
      [emitted (.pendingPartitions operator.coordinator.label (Pending.restore stored).size)],
      exchange.isFailure = false ∧ exchange.isCatalog = false ∧ exchange.isStore = false := by
    intro exchange hexchange
    rcases List.mem_append.1 hexchange with hload | hemitted
    · cases restored with
      | false => cases hload
      | true =>
        cases List.mem_singleton.1 hload
        exact ⟨rfl, rfl, rfl⟩
    · cases List.mem_singleton.1 hemitted
      exact ⟨rfl, rfl, rfl⟩
  obtain ⟨hafter, hcatalog, hstored⟩ := h.along hsound halong fun exchange hexchange ↦
    (hquiet exchange hexchange).1
  refine ⟨hafter, ?_, ?_⟩
  · exact Catalog.eq_of_along_elsewhere hcatalog fun exchange hexchange ↦
      (hquiet exchange hexchange).2.1
  · exact hstored.eq_of_idle fun exchange hexchange before after ↦
      hlasting before exchange after (hquiet exchange hexchange).2.2

/-- An operator that is restored begins with what its store holds. -/
theorem Supports.coordinator_of_launch (h : grounds.Supports services store)
    (hsound : grounds.sound s)
    (hlaunch : operator.launch store restored s = ((.ok (), next), after)) :
    ∃ stored, (restored = false → stored = []) ∧
      (restored = true → grounds.stored s = some stored) ∧
      next = { operator with coordinator := operator.coordinator.start (.restore stored) } := by
  obtain ⟨transcript, result, coordinator, last, hlaunched, halong, hrun⟩ :=
    Operator.launch_eq services store restored operator s
  cases hrun.symm.trans hlaunch
  obtain ⟨stored, hnone, rfl, rfl⟩ := hlaunched.eq_started
  refine ⟨stored, hnone, ?_, rfl⟩
  rintro rfl
  obtain ⟨between, htook, -⟩ := halong
  exact (h s between _ hsound htook rfl).effect.1

/-- Without a stored snapshot a launch that asks the store begins as one that does not. -/
theorem Supports.eq_of_launch {τ : Type} [MonadMetrics (StateM τ)] [MonadFresh (StateM τ)]
    [MonadClock (StateM τ)] {alone : Grounds τ} {services' : Services (StateM τ)}
    {store' : SnapshotStore (StateM τ)} {t after' : τ} {next' : Operator} {hasState : Bool}
    (h : grounds.Supports services store) (h' : alone.Supports services' store')
    (hsound : grounds.sound s) (hsound' : alone.sound t)
    (hlaunch : operator.launch store (restored && hasState) s = ((.ok (), next), after))
    (hlaunch' : operator.launch store' restored t = ((.ok (), next'), after'))
    (habsent : hasState = false → grounds.stored s = some [])
    (hstored : grounds.stored s = alone.stored t) : next = next' := by
  obtain ⟨snapshots, hnone, hsome, hnext⟩ := h.coordinator_of_launch hsound hlaunch
  obtain ⟨snapshots', hnone', hsome', hnext'⟩ := h'.coordinator_of_launch hsound' hlaunch'
  have hsnapshots : snapshots = snapshots' := by
    cases restored with
    | false => rw [hnone rfl, hnone' rfl]
    | true =>
      have hloaded := hstored.trans (hsome' rfl)
      cases hasState with
      | false => exact (hnone rfl).trans (Option.some.inj ((habsent rfl).symm.trans hloaded))
      | true => exact Option.some.inj ((hsome rfl).symm.trans hloaded)
  rw [hnext, hnext', hsnapshots]

end Grounds

namespace Router

/-- Launches one after the other: each route gets its operator in surroundings that are still as
they were at first. -/
theorem launched_of_forEach {grounds : Grounds σ} {restored : Bool}
    {routes : List (String × Route (StateM σ))} {router after : Router (StateM σ)} {s last : σ}
    (hroutes : ∀ entry ∈ routes, router.routes.find? entry.1 = some entry.2)
    (hnodup : (routes.map Prod.fst).Nodup)
    (hbears : ∀ entry ∈ routes, ∃ effect, Lasting effect ∧
      grounds.Bears effect entry.2.services entry.2.store)
    (hsound : grounds.sound s)
    (h : (forEach (fun route ↦ route.operator.launch route.store (restored && route.hasState))
      routes router : StateM σ _) s = ((.ok (), after), last)) :
    grounds.sound last ∧ grounds.catalog last = grounds.catalog s ∧
      grounds.stored last = grounds.stored s ∧ after.routes.keys = router.routes.keys ∧
      (∀ name, name ∉ routes.map Prod.fst → after.routes.find? name = router.routes.find? name) ∧
      ∀ entry ∈ routes, ∃ between operator next, grounds.sound between ∧
        grounds.stored between = grounds.stored s ∧
        entry.2.operator.launch entry.2.store (restored && entry.2.hasState) between =
          ((.ok (), operator), next) ∧
        after.routes.find? entry.1 = some { entry.2 with operator } := by
  induction routes generalizing router s with
  | nil =>
    cases h
    exact ⟨hsound, rfl, rfl, rfl, fun _ _ ↦ rfl, fun _ hentry ↦ absurd hentry List.not_mem_nil⟩
  | cons entry rest ih =>
    obtain ⟨name, route⟩ := entry
    obtain ⟨hnew, hnodup⟩ := List.nodup_cons.1 hnodup
    have hroute : router.routes.find? name = some route := hroutes _ List.mem_cons_self
    obtain ⟨operator, between, hlaunch, h⟩ := forEach_cons_eq_ok.1 h
    obtain ⟨effect, hlasting, hbear⟩ := hbears _ List.mem_cons_self
    obtain ⟨hbetween, hcatalog, hstored⟩ := hbear.of_launch hlasting hsound hlaunch
    obtain ⟨hlast, hcatalog', hstored', hkeys, hothers, heach⟩ :=
      ih (find?_of_later hroutes hnew operator) hnodup
        (fun entry hentry ↦ hbears entry (List.mem_cons_of_mem _ hentry)) hbetween h
    refine ⟨hlast, hcatalog'.trans hcatalog, hstored'.trans hstored,
      hkeys.trans (keys_setOperator hroute route operator), ?_, ?_⟩
    · intro other hother
      rw [List.map_cons, List.mem_cons, not_or] at hother
      rw [hothers other hother.2, find?_setOperator_of_ne router hother.1]
    · intro entry hentry
      rcases List.mem_cons.1 hentry with rfl | hentry
      · refine ⟨s, operator, between, hsound, rfl, hlaunch, ?_⟩
        rw [hothers name hnew]
        exact find?_setOperator_self router name route operator
      · obtain ⟨state, launched, next, hstate, hsame, hrun, hfind⟩ := heach entry hentry
        exact ⟨state, launched, next, hstate, hsame.trans hstored, hrun, hfind⟩

section Shared

variable {τ : Type} [MonadMetrics (StateM τ)] [MonadFresh (StateM τ)] [MonadClock (StateM τ)]
  {grounds : Grounds σ} {start : Catalog} {name : String} {table : Table}
  {router launched : Router (StateM σ)}

/-- Whichever table an operator of a router is for, what it does not store stays as it was. -/
theorem Shared.exists_bears (h : router.Shared grounds start name table)
    {entry : String × Route (StateM σ)}
    (hentry : router.routes.find? entry.1 = some entry.2) :
    ∃ effect, Lasting effect ∧ grounds.Bears effect entry.2.services entry.2.store := by
  by_cases hname : entry.1 = name
  · exact ⟨Keeps, lasting_keeps, h.own entry.2 (hname ▸ hentry)⟩
  · exact ⟨Spares, lasting_spares, (h.others entry.1 entry.2 hname hentry).1⟩

/-- Operators that replace those of a router share what these shared. -/
theorem Shared.of_replaced (h : router.Shared grounds start name table)
    (hkeys : launched.routes.keys = router.routes.keys)
    (hreplaced : ∀ entry ∈ router.routes.entries, ∃ operator,
      launched.routes.find? entry.1 = some { entry.2 with operator }) :
    launched.Shared grounds start name table := by
  refine h.of_same fun visited current hcurrent ↦ ?_
  have hmem := mem_keys_of_find? hcurrent
  rw [hkeys] at hmem
  obtain ⟨⟨_, earlier⟩, hearlier, rfl⟩ := List.mem_map.1 hmem
  obtain ⟨operator, hfind⟩ := hreplaced _ hearlier
  obtain rfl := Option.some.inj (hfind.symm.trans hcurrent)
  exact ⟨earlier, SequencedMap.find?_eq_some_iff.2 hearlier, rfl, rfl⟩

/-- An operator in a router and one of its own begin alike if they find the same snapshots. -/
theorem Shared.mirrors_of_launch {R : Uuid → Uuid → Prop} {alone : Grounds τ} {restored : Bool}
    {s begun : σ} (hshared : router.Shared grounds start name table) (hsound : grounds.sound s)
    (hstart : grounds.catalog s = start)
    (hlaunch : (router.launch restored : StateM σ _) s = ((.ok (), launched), begun))
    {route : Route (StateM σ)} (hroute : router.routes.find? name = some route)
    (habsent : route.hasState = false → grounds.stored s = some [])
    {services : Services (StateM τ)} {store : SnapshotStore (StateM τ)}
    (hsupports : alone.Supports services store) {t begun' : τ} (halone : alone.sound t)
    (hstored : grounds.stored s = alone.stored t)
    (hshare : start.ShareAlike R table.id (alone.catalog t)) {other : Operator}
    (hlaunch' : (route.operator.launch store restored : StateM τ _) t =
      ((.ok (), other), begun')) :
    launched.Shared grounds start name table ∧ launched.routes.keys = router.routes.keys ∧
      grounds.catalog begun = start ∧ alone.catalog begun' = alone.catalog t ∧
      ∃ operator, launched.routes.find? name = some { route with operator } ∧
        Mirrors R grounds alone start (alone.catalog t) table.id operator other begun begun' := by
  have hentries : ∀ entry ∈ router.routes.entries, router.routes.find? entry.1 = some entry.2 :=
    fun _ hentry ↦ SequencedMap.find?_eq_some_iff.2 hentry
  obtain ⟨hbegun, hcatalog, hkept, hkeys, -, heach⟩ :=
    launched_of_forEach hentries router.routes.nodup
      (fun entry hentry ↦ hshared.exists_bears (hentries entry hentry)) hsound hlaunch
  obtain ⟨hbegun', hcatalog', hkept'⟩ := hsupports.of_launch lasting_keeps halone hlaunch'
  have hreplaced : ∀ entry ∈ router.routes.entries, ∃ operator,
      launched.routes.find? entry.1 = some { entry.2 with operator } := fun entry hentry ↦
    let ⟨_, operator, _, _, _, _, hfind⟩ := heach entry hentry
    ⟨operator, hfind⟩
  refine ⟨hshared.of_replaced hkeys hreplaced, hkeys, hcatalog.trans hstart, hcatalog', ?_⟩
  obtain ⟨between, operator, next, hbetween, hsame, hrun, hfind⟩ :=
    heach (name, route) (SequencedMap.find?_eq_some_iff.1 hroute)
  -- the turn of the operator may come late, but its store is still what it was at first
  obtain rfl : operator = other := (hshared.own route hroute).eq_of_launch hsupports hbetween halone
    hrun hlaunch' (fun hstate ↦ hsame.trans (habsent hstate)) (hsame.trans hstored)
  refine ⟨operator, hfind, hbegun, hbegun', ?_, ?_, ?_, hkept.trans (hstored.trans hkept'.symm),
    rfl, rfl⟩
  · rw [hcatalog, hstart]
  · rw [hcatalog']
  · rw [hcatalog, hcatalog', hstart]
    exact hshare

end Shared

end Router

end CommitCoordinator
