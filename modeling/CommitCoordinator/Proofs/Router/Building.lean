import CommitCoordinator.Proofs.Router.FileGrounds
import CommitCoordinator.Proofs.Storage.FileNames
import CommitCoordinator.Proofs.Storage.OrderlyTrees
import CommitCoordinator.Config.Validate

/-!
# Building a router

A router has a route for each configured table. While it is built the catalog may gain tables, but
no snapshots are written, so what a route was told about them is still true when it is launched.
-/

namespace CommitCoordinator

open Storage Dialogue

/-! ## The files of a configuration -/

namespace Config

variable (config : Config)

/-- Whether a path is that of the catalog or of the snapshots of a table. -/
def HasFile (path : String) : Prop :=
  path = config.catalogPath ∨ ∃ entry ∈ config.tables.entries, path = config.statePath entry.1

variable {config}

/-- No key of a valid configuration leads to another directory. -/
theorem hasSeparator_eq_false (h : config.validate = .ok ()) :
    ∀ entry ∈ config.tables.entries, entry.1.hasSeparator = false := by
  intro entry hentry
  have herrors : config.tableErrors = [] := by
    unfold validate at h
    split at h
    · cases h
    · split at h
      · assumption
      · cases h
      · cases h
  have hnone := List.filterMap_eq_nil_iff.1 herrors entry hentry
  unfold TableConfig.error? at hnone
  split at hnone
  · cases hnone
  · next hseparator => exact Bool.eq_false_iff.2 hseparator

/-- A machine without links keeps the promises about the files of a valid configuration if neither
the path of the catalog nor the directory of the snapshots climbs to the directory above. -/
def machineLaws [MonadObjectStore MachineM]
    (hask : ∀ address key machine, ((listStore address key : MachineM _) machine).2 = machine)
    (hvalid : config.validate = .ok ()) (hcatalog : FileTree.Climbless config.catalogPath)
    (hdir : FileTree.Climbless config.stateDir) (workingDir : Storage.Route) :
    FilesLaws Machine config.HasFile :=
  .ofOrderly hask workingDir fun path hpath ↦ by
    rcases hpath with rfl | ⟨entry, hentry, rfl⟩
    · exact hcatalog
    · have hname := TableKey.isFileName_stateFileName (hasSeparator_eq_false hvalid entry hentry)
      exact FileTree.climbless_childPath hname hdir

section Clear

variable {σ : Type} [MonadFileSystem (StateM σ)] [MonadObjectStore (StateM σ)]
  [MonadMetrics (StateM σ)] [MonadFresh (StateM σ)] [MonadClock (StateM σ)]
  (laws : FilesLaws σ config.HasFile) {entry other : TableKey × TableConfig}

/-- Snapshots of different tables are clear of each other. -/
theorem clear_statePath (hvalid : config.validate = .ok ()) (h : entry ∈ config.tables.entries)
    (h' : other ∈ config.tables.entries) (hne : entry.1 ≠ other.1) :
    laws.Clear (config.statePath entry.1) (config.statePath other.1) := by
  have hname := TableKey.fileName?_statePath (hasSeparator_eq_false hvalid entry h) config.stateDir
  have hname' := TableKey.fileName?_statePath (hasSeparator_eq_false hvalid other h')
    config.stateDir
  refine ⟨laws.apart_of_names hname hname' (TableKey.stateFileName_ne hne), ?_⟩
  refine laws.apart_of_names hname (fileName?_draftPath hname') ?_
  rw [TableKey.toList_stateFileName]
  exact ne_draftName

/-- Snapshots are clear of the catalog if the two are not the same file. -/
theorem clear_catalogPath (hvalid : config.validate = .ok ()) (h : entry ∈ config.tables.entries)
    (hapart : laws.apart config.catalogPath (config.statePath entry.1)) :
    laws.Clear (config.statePath entry.1) config.catalogPath := by
  have hapart := laws.apart_symm hapart
  refine ⟨hapart, ?_⟩
  cases hcatalog : fileName? config.catalogPath with
  | none => rwa [draftPath_of_none hcatalog]
  | some name =>
    have hname := TableKey.fileName?_statePath (hasSeparator_eq_false hvalid entry h)
      config.stateDir
    refine laws.apart_of_names hname (fileName?_draftPath hcatalog) ?_
    rw [TableKey.toList_stateFileName]
    exact ne_draftName

end Clear

end Config

/-! ## Adding routes -/

namespace Router

variable {σ : Type} [MonadFileSystem (StateM σ)] [MonadObjectStore (StateM σ)]
  [MonadMetrics (StateM σ)] [MonadFresh (StateM σ)] [MonadClock (StateM σ)]
  {config : Config} (laws : FilesLaws σ config.HasFile) {s after : σ}

/-- Whether all snapshots are as they were and the promises about the files are kept. -/
structure Spared (s after : σ) : Prop where
  sound : laws.sound after
  same : ∀ entry ∈ config.tables.entries,
    laws.content after (config.statePath entry.1) = laws.content s (config.statePath entry.1)

/-- Whether a route is that of a configured table, and knows of stored snapshots. -/
structure Built [Url.DomainNames] (s : σ) (entry : TableKey × TableConfig)
    (route : Route (StateM σ)) : Prop where
  key : route.key = entry.1
  services : ∃ location : Location,
    route.services = ⟨FileCatalog.client config.catalogPath, location.listing⟩
  store : route.store = fileStore (config.statePath entry.1)
  operator : route.operator = .new (.new entry.1.text entry.2.options)
  absent : route.hasState = false → laws.content s (config.statePath entry.1) = none

variable {laws}

theorem Spared.trans {between : σ} (h : Spared laws s between) (h' : Spared laws between after) :
    Spared laws s after :=
  ⟨h'.sound, fun entry hentry ↦ (h'.same entry hentry).trans (h.same entry hentry)⟩

theorem Built.of_spared [Url.DomainNames] {entry : TableKey × TableConfig}
    {route : Route (StateM σ)} (h : Built laws s entry route)
    (hentry : entry ∈ config.tables.entries) (hspared : Spared laws s after) :
    Built laws after entry route :=
  { h with absent := fun hnone ↦ (hspared.same entry hentry).trans (h.absent hnone) }

variable (hvalid : config.validate = .ok ())
  (hapart : ∀ entry ∈ config.tables.entries,
    laws.apart config.catalogPath (config.statePath entry.1))

include hvalid hapart

/-- A table that is added to the catalog does not touch any snapshots. -/
theorem spared_of_ensureTable {name : String} {table : TableConfig} {result : Except RunError Unit}
    (hsound : laws.sound s)
    (h : (ensureTable config name table : ExceptT RunError (StateM σ) Unit).run s =
      (result, after)) : Spared laws s after := by
  unfold ensureTable at h
  split at h
  · cases hfresh : (freshId : StateM σ Uuid) s with
    | mk id drawn =>
      have hquiet := laws.fresh s hsound
      rw [hfresh] at hquiet
      obtain ⟨hdrawn, hsame⟩ := hquiet
      rw [run_bind_ok (run_lift hfresh)] at h
      let ensure : StateM σ (Except CatalogError Table) :=
        FileCatalog.ensure config.catalogPath (.create id name table.options.location)
      have hensured : (laws.about (.inl rfl) drawn).sound (ensure drawn).2 :=
        CatalogCall.sound_onFile (laws.about (.inl rfl) drawn) (laws.sound_about _ hdrawn)
          (.ensure (.create id name table.options.location))
      have hafter : after = (ensure drawn).2 := by
        have hrun : (ExceptT.mk ensure).run drawn = ((ensure drawn).1, (ensure drawn).2) := rfl
        cases hresult : (ensure drawn).1 with
        | error e =>
          rw [hresult] at hrun
          rw [run_bind_error (run_adapt hrun RunError.catalogSetup)] at h
          cases h
          rfl
        | ok ensured =>
          rw [hresult] at hrun
          rw [run_bind_ok (run_adapt hrun RunError.catalogSetup)] at h
          cases h
          rfl
      subst hafter
      refine ⟨hensured.1, fun entry hentry ↦ ?_⟩
      rw [hensured.2 _ (.inr ⟨entry, hentry, rfl⟩)
        (Config.clear_catalogPath laws hvalid hentry (hapart entry hentry)), hsame]
  · cases h
    exact ⟨hsound, fun _ _ ↦ rfl⟩

/-- A route that is added is that of its table. -/
theorem built_of_addTable [Url.DomainNames] {router next : Router (StateM σ)}
    {entry : TableKey × TableConfig} (hentry : entry ∈ config.tables.entries)
    (hsound : laws.sound s)
    (h : (addTable config router entry : ExceptT RunError (StateM σ) _).run s =
      (.ok next, after)) :
    Spared laws s after ∧ router.routes.contains (entry.2.resolvedName entry.1) = false ∧
      ∃ route, next = ⟨router.routes.insert (entry.2.resolvedName entry.1) route⟩ ∧
        Built laws after entry route := by
  obtain ⟨key, table⟩ := entry
  unfold addTable at h
  dsimp only at h
  split at h
  · cases h
  · next hnew =>
    obtain ⟨_, ensured, hensure, h⟩ := run_bind_eq_ok h
    have hspared := spared_of_ensureTable hvalid hapart hsound hensure
    obtain ⟨route, routed, hroute, h⟩ := run_bind_eq_ok h
    cases h
    unfold routeOf at hroute
    obtain ⟨location, located, hlocation, hroute⟩ := run_bind_eq_ok hroute
    cases hlook : (isFile (config.statePath key) : StateM σ Bool) located with
    | mk hasState looked =>
      rw [run_bind_ok (run_lift hlook)] at hroute
      cases hroute
      obtain rfl : ensured = located := congrArg Prod.snd hlocation
      obtain ⟨hlooked, hsame, habsent⟩ :=
        laws.look (.inr ⟨_, hentry, rfl⟩) hspared.sound hlook
      refine ⟨hspared.trans ⟨hlooked, fun _ _ ↦ congrFun hsame _⟩, Bool.eq_false_iff.2 hnew, _, rfl,
        ⟨rfl, ⟨location, rfl⟩, rfl, rfl, fun hnone ↦ ?_⟩⟩
      rw [hsame]
      exact habsent hnone

/-- Routes are added in order, each under a new name. -/
theorem built_of_foldlM [Url.DomainNames] {entries : List (TableKey × TableConfig)}
    (hentries : ∀ entry ∈ entries, entry ∈ config.tables.entries)
    {router next : Router (StateM σ)} (hsound : laws.sound s)
    (h : (entries.foldlM (addTable config) router : ExceptT RunError (StateM σ) _).run s =
      (.ok next, after)) :
    Spared laws s after ∧ next.routes.keys =
        router.routes.keys ++ entries.map (fun entry ↦ entry.2.resolvedName entry.1) ∧
      (∀ name ∈ router.routes.keys, next.routes.find? name = router.routes.find? name) ∧
      ∀ entry ∈ entries, ∃ route,
        next.routes.find? (entry.2.resolvedName entry.1) = some route ∧
          Built laws after entry route := by
  induction entries generalizing router s with
  | nil =>
    cases h
    exact ⟨⟨hsound, fun _ _ ↦ rfl⟩, (List.append_nil _).symm, fun _ _ ↦ rfl,
      fun _ hentry ↦ absurd hentry List.not_mem_nil⟩
  | cons entry rest ih =>
    rw [List.foldlM_cons] at h
    obtain ⟨added, between, hadd, h⟩ := run_bind_eq_ok h
    obtain ⟨hspared, hnew, route, rfl, hbuilt⟩ :=
      built_of_addTable hvalid hapart (hentries entry List.mem_cons_self) hsound hadd
    obtain ⟨hlater, hkeys, hkept, hroutes⟩ := ih
      (fun other hother ↦ hentries other (List.mem_cons_of_mem _ hother)) hspared.sound h
    rw [SequencedMap.keys_insert_of_not_contains hnew route] at hkeys hkept
    refine ⟨hspared.trans hlater, ?_, fun name hname ↦ ?_, fun other hother ↦ ?_⟩
    · rw [hkeys, List.append_assoc, List.map_cons, List.singleton_append]
    · have hne : name ≠ entry.2.resolvedName entry.1 := by
        rintro rfl
        exact of_decide_eq_false hnew hname
      rw [hkept name (List.mem_append_left _ hname), SequencedMap.find?_insert_of_ne _ _ hne]
    · rcases List.mem_cons.1 hother with rfl | hother
      · refine ⟨route, ?_, hbuilt.of_spared (hentries _ List.mem_cons_self) hlater⟩
        rw [hkept _ (List.mem_append_right _ (List.mem_singleton_self _)),
          SequencedMap.find?_insert_self]
      · exact hroutes other hother

/-- A router has the routes of the configured tables and no others. -/
theorem built_of_ofConfig [Url.DomainNames] {router : Router (StateM σ)} (hsound : laws.sound s)
    (h : (ofConfig config : StateM σ _) s = (.ok router, after)) :
    Spared laws s after ∧
      (∀ name route, router.routes.find? name = some route →
        ∃ entry ∈ config.tables.entries, name = entry.2.resolvedName entry.1 ∧
          Built laws after entry route) ∧
      ∀ entry ∈ config.tables.entries, ∃ route,
        router.routes.find? (entry.2.resolvedName entry.1) = some route ∧
          Built laws after entry route := by
  obtain ⟨hspared, hkeys, -, hroutes⟩ :=
    built_of_foldlM hvalid hapart (fun _ hentry ↦ hentry) hsound h
  refine ⟨hspared, fun name route hroute ↦ ?_, hroutes⟩
  have hname := mem_keys_of_find? hroute
  rw [hkeys] at hname
  obtain ⟨entry, hentry, rfl⟩ := List.mem_map.1 hname
  obtain ⟨other, hother, hbuilt⟩ := hroutes entry hentry
  obtain rfl := Option.some.inj (hother.symm.trans hroute)
  exact ⟨entry, hentry, rfl, hbuilt⟩

end Router

end CommitCoordinator
