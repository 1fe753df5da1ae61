import CommitCoordinator.Proofs.Router.Building
import CommitCoordinator.Proofs.Router.Premises
import CommitCoordinator.Proofs.Router.Checkpoints
import Mathlib.Data.Set.Function

/-!
# Tables of one router do not interfere

The tables of a router share the catalog and the directory of their snapshots, and their events
come in any order. As long as their files are not in each other's way, each table ends as if an
operator of its own had got the events of that table alone.
-/

namespace CommitCoordinator

open Storage Dialogue

/-! ## Runs of a configured router -/

section Run

variable (σ : Type) [Url.DomainNames] [MonadFileSystem (StateM σ)] [MonadObjectStore (StateM σ)]
  [MonadMetrics (StateM σ)] [MonadFresh (StateM σ)] [MonadClock (StateM σ)]

/-- A run of the router of a configuration from its building to its last event, without an error. -/
structure RouterRun (config : Config) (restored : Bool) (events : List HostEvent) where
  /-- The states before the router is built, when it is launched, when the first event comes and
  after the last one. -/
  opening : σ
  built : σ
  begun : σ
  last : σ
  router : Router (StateM σ)
  launched : Router (StateM σ)
  final : Router (StateM σ)
  delivered : Nat
  hbuild : (Router.ofConfig config : StateM σ _) opening = (.ok router, built)
  hlaunch : (router.launch restored : StateM σ _) built = ((.ok (), launched), begun)
  hdrive : (driveWith Router.deliver 0 events launched : StateM σ _) begun =
    ((.ok delivered, final), last)

end Run

section Isolation

variable {σ τ : Type} [Url.DomainNames] [MonadFileSystem (StateM σ)]
  [MonadObjectStore (StateM σ)] [MonadMetrics (StateM σ)] [MonadFresh (StateM σ)]
  [MonadClock (StateM σ)] [MonadMetrics (StateM τ)] [MonadFresh (StateM τ)] [MonadClock (StateM τ)]
  {config : Config} {restored : Bool} {events : List HostEvent}

namespace RouterRun

variable (run : RouterRun σ config restored events)

/-- The visits of the events. -/
def visits : List Visit :=
  run.launched.visits events run.begun

/-- What the operator of a table found in directories and drew. -/
def surveysOf (name : String) : List Exchange :=
  surveys (Visit.transcript (Visit.ofTable name run.visits))

/-- Whether the catalog knows a table of its own for each operator when these are launched. -/
structure Resolves (start : Catalog) (tables : String → Table) : Prop where
  found : ∀ name ∈ run.router.routes.keys, start.lookup name = .ok (tables name)
  distinct : Set.InjOn (fun name ↦ (tables name).id) {name | name ∈ run.router.routes.keys}

variable {run} {laws : FilesLaws σ config.HasFile} {start : Catalog} {tables : String → Table}
  (hvalid : config.validate = .ok ())
  (hclear : ∀ entry ∈ config.tables.entries,
    laws.Clear config.catalogPath (config.statePath entry.1))
  (hsound : laws.sound run.opening) (hresolves : run.Resolves start tables)
  {entry : TableKey × TableConfig} (hentry : entry ∈ config.tables.entries)

include hvalid hclear hsound

theorem built_routes :
    Router.Spared laws run.opening run.built ∧
      (∀ name route, run.router.routes.find? name = some route →
        ∃ entry ∈ config.tables.entries, name = entry.2.resolvedName entry.1 ∧
          Router.Built laws run.built entry route) ∧
      ∀ entry ∈ config.tables.entries, ∃ route,
        run.router.routes.find? (entry.2.resolvedName entry.1) = some route ∧
          Router.Built laws run.built entry route :=
  Router.built_of_ofConfig hvalid (fun entry hentry ↦ (hclear entry hentry).1) hsound run.hbuild

include hresolves hentry

/-- The files of a valid configuration keep the operators of a router apart. -/
theorem shared :
    run.router.Shared (.ofFiles laws config.catalogPath (config.statePath entry.1)) start
      (entry.2.resolvedName entry.1) (tables (entry.2.resolvedName entry.1)) := by
  obtain ⟨-, hroutes, hentries⟩ := built_routes hvalid hclear hsound
  obtain ⟨own, hown, hbuilt⟩ := hentries entry hentry
  have hfile : config.HasFile (config.statePath entry.1) := .inr ⟨entry, hentry, rfl⟩
  have hcatalog := Config.clear_catalogPath laws hvalid hentry (hclear entry hentry).1
  constructor
  · intro route hroute
    obtain rfl := Option.some.inj (hown.symm.trans hroute)
    obtain ⟨location, hservices⟩ := hbuilt.services
    rw [hservices, hbuilt.store]
    exact FileGrounds.supports (.inl rfl) hfile hcatalog (hclear entry hentry)
      (laws.quiet_listing location)
  · intro other route hne hroute
    obtain ⟨another, hanother, rfl, hbuilt'⟩ := hroutes other route hroute
    have hkey : entry.1 ≠ another.1 := by
      obtain ⟨key, table⟩ := entry
      obtain ⟨key', table'⟩ := another
      rintro rfl
      have hsame := (SequencedMap.find?_eq_some_iff.2 hanother).symm.trans
        (SequencedMap.find?_eq_some_iff.2 hentry)
      cases hsame
      exact hne rfl
    obtain ⟨location, hservices⟩ := hbuilt'.services
    have hkeys := Router.mem_keys_of_find? hroute
    refine ⟨?_, tables _, hresolves.found _ hkeys, fun hid ↦ ?_⟩
    · rw [hservices, hbuilt'.store]
      exact FileGrounds.admits (.inl rfl) hfile (.inr ⟨another, hanother, rfl⟩) hcatalog
        (hclear another hanother) (Config.clear_statePath laws hvalid hentry hanother hkey)
        (laws.quiet_listing location)
    · exact hne (hresolves.distinct (Router.mem_keys_of_find? hown) hkeys hid).symm

end RouterRun

/-- Tables of one router do not interfere. Take the router of a valid configuration in which neither
the snapshots of a table nor their draft are the file of the catalog, and let the tables resolve to
tables of the catalog with different identifiers. Then each table ends as an operator of its own
that begins with the same table, snapshots and share in the catalog, gets the reports of the table
and all other events, finds the same files in directories and does not fail: with the same
coordinator and number of commits, the same snapshots in its store, and the same versions and
manifests up to identifiers and times, as long as all identifiers that are drawn are new. -/
theorem tables_do_not_interfere {R : Uuid → Uuid → Prop} (hvalid : config.validate = .ok ())
    {laws : FilesLaws σ config.HasFile}
    (hclear : ∀ entry ∈ config.tables.entries,
      laws.Clear config.catalogPath (config.statePath entry.1))
    (run : RouterRun σ config restored events) (hsound : laws.sound run.opening)
    {start : Catalog}
    (hheld : FileCatalog.held config.catalogPath (laws.content run.built config.catalogPath) =
      .ok start)
    {tables : String → Table} (hresolves : run.Resolves start tables)
    (hunseen : start.Unseen (Visit.transcript run.visits))
    {key : TableKey} {table : TableConfig} (hentry : (key, table) ∈ config.tables.entries)
    (alone : Workplace τ) {t begun : τ} (halone : alone.sound t)
    (hlookup : (alone.catalog t).lookup (table.resolvedName key) =
      .ok (tables (table.resolvedName key)))
    (hshare : start.ShareAlike R (tables (table.resolvedName key)).id (alone.catalog t))
    (hstored : (FileStore.loaded (config.statePath key)
      (.ok (laws.content run.built (config.statePath key)))).toOption = alone.stored t)
    {other : Operator}
    (hlaunch : ((Operator.new (.new key.text table.options)).launch alone.store restored :
      StateM τ _) t = ((.ok (), other), begun))
    (hunseen' : (alone.catalog t).Unseen (other.transcript alone.services alone.store
      (events.filter (·.concerns (table.resolvedName key))) begun))
    (hfailure : ∀ exchange ∈ other.transcript alone.services alone.store
      (events.filter (·.concerns (table.resolvedName key))) begun, exchange.isFailure = false)
    (hanswers : Concordant R (run.surveysOf (table.resolvedName key))
      (surveys (other.transcript alone.services alone.store
        (events.filter (·.concerns (table.resolvedName key))) begun))) :
    ∃ route other' last delivered,
      run.final.routes.find? (table.resolvedName key) = some route ∧
      (other.drive alone.services alone.store
        (events.filter (·.concerns (table.resolvedName key))) : StateM τ _) begun =
          ((.ok delivered, other'), last) ∧
      route.operator.coordinator.pendingList = other'.coordinator.pendingList ∧
      route.operator.coordinator.quorum = other'.coordinator.quorum ∧
      route.operator.coordinator.watermark = other'.coordinator.watermark ∧
      route.operator.commitCount = other'.commitCount ∧
      (FileStore.loaded (config.statePath key)
        (.ok (laws.content run.last (config.statePath key)))).toOption = alone.stored last ∧
      ∃ catalog,
        FileCatalog.held config.catalogPath (laws.content run.last config.catalogPath) =
          .ok catalog ∧
        catalog.ShareAlike R (tables (table.resolvedName key)).id (alone.catalog last) := by
  obtain ⟨hspared, -, hentries⟩ := run.built_routes hvalid hclear hsound
  have hshared := run.shared hvalid hclear hsound hresolves hentry
  obtain ⟨route, hroute, hbuilt⟩ := hentries _ hentry
  let grounds := Grounds.ofFiles laws config.catalogPath (config.statePath key)
  have habsent : route.hasState = false → grounds.stored run.built = some [] := by
    intro hnone
    change (FileStore.loaded (config.statePath key)
      (.ok (laws.content run.built (config.statePath key)))).toOption = some []
    rw [hbuilt.absent hnone]
    rfl
  rw [← hbuilt.operator] at hlaunch
  obtain ⟨hshared', hkeys, hcatalog, hcatalog', operator, hoperator, hmirrors⟩ :=
    hshared.mirrors_of_launch ⟨hspared.sound, start, hheld⟩
      (FileGrounds.catalog_eq hheld) run.hlaunch hroute habsent alone.supports halone hstored hshare
      hlaunch
  obtain ⟨hvisited, hevents⟩ := Router.visited_of_drive run.hdrive
  have hname := Router.mem_keys_of_find? hroute
  obtain ⟨route', other', last, hfinal, hdrive, hends⟩ := mirrors_of_visited hvisited hshared'
    (hresolves.found _ hname) hlookup alone.supports hoperator hmirrors (hcatalog ▸ hunseen)
    (hevents _ (hkeys ▸ hname)) (hcatalog' ▸ hunseen') hfailure hanswers 0
  obtain ⟨-, catalog, hlast⟩ := hends.sound
  have hcoordinator := hends.coordinator
  refine ⟨route', other', last, _, hfinal, hdrive, ?_, ?_, ?_, hends.commitCount, hends.stored,
    catalog, hlast, ?_⟩
  · rw [hcoordinator]
  · rw [hcoordinator]
  · rw [hcoordinator]
  · exact FileGrounds.catalog_eq hlast ▸ hends.share

end Isolation

/-! ## Two tables that commit -/

/-- A table on the disk and one in a store outside, with the catalog and the snapshots at their
default paths. -/
def depot : Config :=
  { Config.empty with
    tables := .ofList [(⟨"events"⟩, ⟨.ofLocation "events", none, false, .empty⟩),
      (⟨"users"⟩, ⟨.ofLocation "s3://warehouse/users", none, false, .empty⟩)] }

/-- The catalog of the two, without any versions. -/
def depotCatalog : Catalog where
  tables := .ofList [("events", ⟨"t1", "events", "events", ""⟩),
    ("users", ⟨"t2", "users", "s3://warehouse/users", ""⟩)]
  partitions := .empty
  manifests := .empty

/-- A working directory with the catalog, the directory of the snapshots and the first table. -/
def depotTree : FileTree where
  nodes := .ofList [(["srv"], .dir), (["srv", "soulsink-state"], .dir), (["srv", "events"], .dir),
    (["srv", "events", "dt=2"], .dir),
    (["srv", "events", "dt=2", "part-0.parquet"], .file (.zeros 10)),
    (["srv", "soulsink-catalog.json"], .file (.bytes (FileCatalog.encode depotCatalog)))]
  workingDir := ["srv"]

theorem orderly_depotTree : depotTree.Orderly :=
  .of_entries (by decide +kernel) (by decide +kernel) (by decide +kernel)

def depotMachine : Machine :=
  { bareMachine with files := depotTree }

/-- Where the snapshots of a table are. -/
def depotState (key : TableKey) : Folder :=
  ⟨depot.statePath key, ["srv", "soulsink-state", key.text ++ ".json"],
    ["srv", "soulsink-state", key.text ++ ".json.tmp"]⟩

def depotPremises : Premises where
  catalog := ⟨depot.catalogPath, ["srv", "soulsink-catalog.json"],
    ["srv", "soulsink-catalog.json.tmp"]⟩
  states := [depotState ⟨"events"⟩, depotState ⟨"users"⟩]
  shelves := [⟨"events/dt=2", ["srv", "events", "dt=2"], [⟨"part-0.parquet", false, 10⟩]⟩]

theorem tidy_depotPremises : depotPremises.Tidy := by
  constructor <;> decide +kernel

def depotDesk : Desk :=
  ⟨depotCatalog, [], 0⟩

theorem follows_depotMachine : depotPremises.Follows depotMachine depotDesk where
  hosts := by
    have hplaces : ∀ folder ∈ depotPremises.catalog :: depotPremises.states,
        FileTree.routeFrom? depotTree.workingDir folder.path = some folder.file ∧
          FileTree.routeFrom? depotTree.workingDir (draftPath folder.path) = some folder.draft ∧
          (∀ parent ∈ parent? folder.path, parent = "" ∨
            FileTree.routeFrom? depotTree.workingDir parent = some folder.file.dropLast) ∧
          depotTree.node? folder.file.dropLast = some .dir ∧
          depotTree.node? folder.draft.dropLast = some .dir ∧
          depotTree.node? folder.file ≠ some .dir ∧ depotTree.node? folder.draft ≠ some .dir := by
      decide +kernel
    intro folder hfolder
    obtain ⟨hfile, hdraft, hparent, hdir, hdir', hne, hne'⟩ := hplaces folder hfolder
    exact orderly_depotTree.hosts hfile hdraft hparent hdir hdir' hne hne'
  shows := by
    have hroutes : ∀ shelf ∈ depotPremises.shelves,
        FileTree.routeFrom? depotTree.workingDir shelf.path = some shelf.route ∧
          depotTree.node? shelf.route = some .dir ∧
          depotTree.listedAt shelf.route = shelf.listed := by
      decide +kernel
    intro shelf hshelf
    obtain ⟨hroute, hdir, hlisted⟩ := hroutes shelf hshelf
    exact ⟨orderly_depotTree.leads_dir hroute hdir true, hlisted⟩
  catalog := rfl
  nextId := rfl
  time := rfl

section Stores

/-- One file lies in every directory of a store. -/
def depotAnswer (key : String) : Except ObjectStoreError Children :=
  .ok ([], [(key ++ "/part-1.parquet", 20)])

local instance depotStores : MonadObjectStore MachineM :=
  ⟨fun _ key ↦ pure (depotAnswer key)⟩

/-- The location of the second table. -/
def warehouse : Location :=
  .remote ⟨.amazon, ⟨"s3", some ⟨"", none, "warehouse", none⟩, "/users", false, none, none⟩, .empty⟩
    ⟨"s3://warehouse/users", "users"⟩

theorem location_warehouse : Location.of "s3://warehouse/users" .empty = .ok warehouse := by
  decide +kernel

theorem location_disk : Location.of "events" .empty = .ok .disk := by
  decide +kernel

def depotRoute (key : TableKey) (location : Location) (coordinator : Coordinator) :
    Route MachineM where
  key
  services := ⟨FileCatalog.client depot.catalogPath, location.listing⟩
  store := fileStore (depot.statePath key)
  hasState := depotTree.isFileAt (depot.statePath key)
  operator := .new coordinator

/-- The router of the two tables. -/
def depotRouter (first second : Coordinator) : Router MachineM :=
  ⟨⟨[("events", depotRoute ⟨"events"⟩ .disk first),
    ("users", depotRoute ⟨"users"⟩ warehouse second)], by simp⟩⟩

/-- A table that is in the catalog already gets its route. -/
theorem addTable_depot {router : Router MachineM} {key : TableKey} {table : TableConfig}
    {location : Location} (hnew : router.routes.contains (table.resolvedName key) = false)
    (hpresent : table.createIfMissing = false)
    (hlocation : Location.of table.options.location table.storageOptions = .ok location) :
    (Router.addTable depot router (key, table) : ExceptT RunError MachineM _).run depotMachine =
      (.ok ⟨router.routes.insert (table.resolvedName key)
        (depotRoute key location (.new key.text table.options))⟩, depotMachine) := by
  have hroute : (Router.routeOf depot key table : ExceptT RunError MachineM _).run depotMachine =
      (.ok (depotRoute key location (.new key.text table.options)), depotMachine) := by
    unfold Router.routeOf
    rw [hlocation]
    rfl
  have hensure : (Router.ensureTable depot (table.resolvedName key) table :
      ExceptT RunError MachineM _).run depotMachine = (.ok (), depotMachine) := by
    rw [Router.ensureTable, if_neg (by rw [hpresent]; nofun)]
    rfl
  unfold Router.addTable
  dsimp only
  rw [if_neg (by rw [hnew]; nofun), run_bind_ok hensure, run_bind_ok hroute]
  rfl

theorem ofConfig_depot : (Router.ofConfig depot : MachineM _) depotMachine =
    (.ok (depotRouter (.new "events" (.ofLocation "events"))
      (.new "users" (.ofLocation "s3://warehouse/users"))), depotMachine) := by
  refine (run_bind_ok (addTable_depot rfl rfl location_disk) _).trans ?_
  exact run_bind_ok (addTable_depot (by decide) rfl location_warehouse) _

/-! ### The run -/

/-- The only writer of a table reports a partition. -/
def wholeReport (name partition : String) : HostEvent :=
  .record ⟨1, 0, 1, name, "", .ofList [partition]⟩

/-- Both tables commit, and then a checkpoint comes. -/
def depotEvents : List HostEvent :=
  [wholeReport "users" "a", wholeReport "events" "dt=2", .watermark 40, .checkpoint 1]

def startedAt (name location : String) : Coordinator :=
  (Coordinator.new name (.ofLocation location)).start .empty

/-- The router when the first event comes. -/
def depotLaunched : Router MachineM :=
  depotRouter (startedAt "events" "events") (startedAt "users" "s3://warehouse/users")

def depotBegun : Machine :=
  { depotMachine with
    ledger := (depotMachine.ledger.record (.pendingPartitions "events" 0)).record
      (.pendingPartitions "users" 0) }

theorem launch_depot : (depotRouter (.new "events" (.ofLocation "events"))
    (.new "users" (.ofLocation "s3://warehouse/users"))).launch false depotMachine =
      ((.ok (), depotLaunched), depotBegun) :=
  rfl

/-! ### The same at a desk -/

/-- What is found in the directories of the two tables. -/
def depotFound (name directory : String) : Except StorageError (List Entry) :=
  if name = "events" then .ok [.file (directory ++ "/part-0.parquet") 10]
  else .ok [.file (directory ++ "/part-1.parquet") 20]

/-- The directories of the two tables that are listed. -/
def depotDirectories (name : String) : List String :=
  if name = "events" then ["events/dt=2"] else ["s3://warehouse/users/a"]

def deskRoute (key : TableKey) (coordinator : Coordinator) : Route (StateM Desk) where
  key
  services := Desk.servicesFinding (depotFound key.text)
  store := memoryStore
  hasState := false
  operator := .new coordinator

def deskRouter : Router (StateM Desk) :=
  ⟨⟨[("events", deskRoute ⟨"events"⟩ (startedAt "events" "events")),
    ("users", deskRoute ⟨"users"⟩ (startedAt "users" "s3://warehouse/users"))], by simp⟩⟩

theorem answers_events : AnswersAlike depotPremises.Follows
    (Premises.Asks (depotDirectories "events"))
    (answering ⟨FileCatalog.client depot.catalogPath, Location.disk.listing⟩
      (fileStore (depot.statePath ⟨"events"⟩)))
    (answering (Desk.servicesFinding (depotFound "events")) memoryStore) := by
  have hfinds : depotPremises.Finds (depotDirectories "events") Location.disk.listing
      (depotFound "events") := by
    refine Premises.finds_disk fun directory hdirectory ↦ ?_
    cases List.mem_singleton.1 hdirectory
    exact ⟨_, List.mem_singleton_self _, false, by decide +kernel, by decide +kernel⟩
  have hstate : depotState ⟨"events"⟩ ∈ depotPremises.states := List.mem_cons_self
  exact Premises.answersAlike tidy_depotPremises rfl hstate rfl hfinds

theorem answers_users : AnswersAlike depotPremises.Follows
    (Premises.Asks (depotDirectories "users"))
    (answering ⟨FileCatalog.client depot.catalogPath, warehouse.listing⟩
      (fileStore (depot.statePath ⟨"users"⟩)))
    (answering (Desk.servicesFinding (depotFound "users")) memoryStore) := by
  have hfinds : depotPremises.Finds (depotDirectories "users") warehouse.listing
      (depotFound "users") := by
    refine Premises.finds_remote (fun _ _ ↦ rfl) fun directory hdirectory ↦ ?_
    cases List.mem_singleton.1 hdirectory
    decide +kernel
  have hstate : depotState ⟨"users"⟩ ∈ depotPremises.states :=
    List.mem_cons_of_mem _ List.mem_cons_self
  exact Premises.answersAlike tidy_depotPremises rfl hstate rfl hfinds

theorem routesAlike_depot : RoutesAlike depotPremises.Follows
    (fun name ↦ Premises.Asks (depotDirectories name)) depotLaunched.routes.entries
    deskRouter.routes.entries :=
  .cons ⟨rfl, rfl, rfl, answers_events⟩ (.cons ⟨rfl, rfl, rfl, answers_users⟩ .nil)

/-- The machine is followed at the desk. -/
theorem lockstep_depot :
    depotLaunched.visits depotEvents depotBegun = deskRouter.visits depotEvents depotDesk ∧
      Router.EndAlike depotPremises.Follows (fun name ↦ Premises.Asks (depotDirectories name))
        (driveWith Router.deliver 0 depotEvents depotLaunched depotBegun)
        (driveWith Router.deliver 0 depotEvents deskRouter depotDesk) := by
  refine Router.drive_alike depotEvents 0 routesAlike_depot (follows_depotMachine.of_ledger _) ?_
  decide +kernel

/-- The run of the two tables to its end. -/
def depotRun : RouterRun Machine depot false depotEvents where
  opening := depotMachine
  built := depotMachine
  begun := depotBegun
  last := (driveWith Router.deliver 0 depotEvents depotLaunched depotBegun).2
  router := depotRouter (.new "events" (.ofLocation "events"))
    (.new "users" (.ofLocation "s3://warehouse/users"))
  launched := depotLaunched
  final := (driveWith Router.deliver 0 depotEvents depotLaunched depotBegun).1.2
  delivered := 4
  hbuild := ofConfig_depot
  hlaunch := launch_depot
  hdrive := by
    have hdesk : (driveWith Router.deliver 0 depotEvents deskRouter depotDesk).1.1 = .ok 4 := by
      decide +kernel
    exact Prod.ext (Prod.ext (lockstep_depot.2.result.trans hdesk) rfl) rfl

theorem visits_depotRun : depotRun.visits = deskRouter.visits depotEvents depotDesk :=
  lockstep_depot.1

def depotTable (name : String) : Table :=
  if name = "events" then ⟨"t1", "events", "events", ""⟩
  else ⟨"t2", "users", "s3://warehouse/users", ""⟩

theorem resolves_depot : depotRun.Resolves depotCatalog depotTable where
  found := by
    change ∀ name ∈ ["events", "users"], _
    decide
  distinct := by
    change ∀ name ∈ ["events", "users"], ∀ other ∈ ["events", "users"],
      (depotTable name).id = (depotTable other).id → name = other
    decide

/-- Identifiers that are drawn are new to a catalog without versions. -/
theorem unseen_depotCatalog {transcript : List Exchange}
    (h : (transcript.flatMap Exchange.drawn).Nodup) : depotCatalog.Unseen transcript :=
  ⟨h, fun _ _ ↦ ⟨fun _ _ ↦ List.not_mem_nil, rfl⟩⟩

theorem validate_depot : depot.validate = .ok () := by
  decide +kernel

def depotLaws : FilesLaws Machine depot.HasFile :=
  depot.machineLaws (fun _ _ _ ↦ rfl) validate_depot (by decide +kernel) (by decide +kernel) ["srv"]

theorem clear_depot : ∀ entry ∈ depot.tables.entries,
    depotLaws.Clear depot.catalogPath (depot.statePath entry.1) := by
  have hroutes : ∀ entry ∈ depot.tables.entries,
      FileTree.routeFrom? ["srv"] depot.catalogPath ≠
          FileTree.routeFrom? ["srv"] (depot.statePath entry.1) ∧
        FileTree.routeFrom? ["srv"] depot.catalogPath ≠
          FileTree.routeFrom? ["srv"] (draftPath (depot.statePath entry.1)) := by
    decide +kernel
  exact fun entry hentry ↦
    ⟨.of_ne (hroutes entry hentry).1, .of_ne (hroutes entry hentry).2⟩

/-! ### The first table alone -/

def eventsAlone : Operator :=
  .new (startedAt "events" "events")

def aloneBegun : Machine :=
  { depotMachine with
    ledger := depotMachine.ledger.record (.pendingPartitions "events" 0) }

theorem mem_depot : (⟨"events"⟩, ⟨.ofLocation "events", none, false, .empty⟩) ∈
    depot.tables.entries :=
  List.mem_cons_self

/-- The surroundings of the first table alone. -/
def aloneDepot : Workplace Machine where
  toGrounds := .ofFiles depotLaws depot.catalogPath (depot.statePath ⟨"events"⟩)
  services := ⟨FileCatalog.client depot.catalogPath, Location.disk.listing⟩
  store := fileStore (depot.statePath ⟨"events"⟩)
  supports := by
    have hclear := clear_depot _ mem_depot
    have hstate := Config.clear_catalogPath depotLaws validate_depot mem_depot hclear.1
    exact FileGrounds.supports (.inl rfl) (.inr ⟨_, mem_depot, rfl⟩) hstate hclear
      (depotLaws.quiet_listing .disk)

theorem lockstep_alone :
    eventsAlone.transcript aloneDepot.services aloneDepot.store
        (depotEvents.filter (·.concerns "events")) aloneBegun =
      eventsAlone.transcript (Desk.servicesFinding (depotFound "events")) memoryStore
        (depotEvents.filter (·.concerns "events")) depotDesk ∧
      EndAlike depotPremises.Follows
        (driveWith (Operator.deliver aloneDepot.services aloneDepot.store) 0
          (depotEvents.filter (·.concerns "events")) eventsAlone aloneBegun)
        (driveWith (Operator.deliver (Desk.servicesFinding (depotFound "events")) memoryStore) 0
          (depotEvents.filter (·.concerns "events")) eventsAlone depotDesk) := by
  refine Operator.drive_alike answers_events _ eventsAlone 0 (follows_depotMachine.of_ledger _) ?_
  decide +kernel

/-- Both tables commit once. -/
theorem commitCount_depotRun : ∀ name ∈ ["events", "users"], ∃ route,
    depotRun.final.routes.find? name = some route ∧ route.operator.commitCount = 1 := by
  have hdesk : ∀ name ∈ ["events", "users"], ((driveWith Router.deliver 0 depotEvents deskRouter
      depotDesk).1.2.routes.find? name).map (·.operator.commitCount) = some 1 := by
    decide +kernel
  intro name hname
  obtain ⟨route', hroute', hcount⟩ := Option.map_eq_some_iff.1 (hdesk name hname)
  have halike : Option.Rel (Route.Alike depotPremises.Follows
      (Premises.Asks (depotDirectories name))) (depotRun.final.routes.find? name) (some route') :=
    hroute' ▸ Router.find?_alike lockstep_depot.2.routes name
  generalize depotRun.final.routes.find? name = found at halike
  cases halike with
  | some hroute => exact ⟨_, rfl, hroute.operator ▸ hcount⟩

/-- Both have their versions in the catalog at the end. -/
theorem chains_depotRun {catalog : Catalog}
    (h : FileCatalog.held depot.catalogPath
      (depotLaws.content depotRun.last depot.catalogPath) = .ok catalog) :
    catalog.chain "t1" "dt=2" = [.ofNumber 1] ∧ catalog.chain "t2" "a" = [.ofNumber 0] := by
  have hcatalog : (driveWith Router.deliver 0 depotEvents deskRouter depotDesk).2.catalog =
      catalog :=
    Except.ok.inj (lockstep_depot.2.state.held_eq.symm.trans h)
  rw [← hcatalog]
  decide +kernel

/-- Each identifier that the router draws for the first table is the next one after that which is
drawn alone. -/
def IsNext (id id' : Uuid) : Prop :=
  ∃ number, id' = .ofNumber number ∧ id = .ofNumber (number + 1)

theorem tables_do_not_interfere_committing :
    (∀ name ∈ ["events", "users"], ∃ route, depotRun.final.routes.find? name = some route ∧
      route.operator.commitCount = 1) ∧
    ∃ route other last delivered,
      depotRun.final.routes.find? "events" = some route ∧
      (eventsAlone.drive aloneDepot.services aloneDepot.store
        (depotEvents.filter (·.concerns "events")) : MachineM _) aloneBegun =
          ((.ok delivered, other), last) ∧
      route.operator.coordinator.pendingList = other.coordinator.pendingList ∧
      route.operator.coordinator.quorum = other.coordinator.quorum ∧
      route.operator.coordinator.watermark = other.coordinator.watermark ∧
      route.operator.commitCount = other.commitCount ∧
      (FileStore.loaded (depot.statePath ⟨"events"⟩)
        (.ok (depotLaws.content depotRun.last (depot.statePath ⟨"events"⟩)))).toOption =
          aloneDepot.stored last ∧
      ∃ catalog,
        FileCatalog.held depot.catalogPath (depotLaws.content depotRun.last depot.catalogPath) =
          .ok catalog ∧
        catalog.ShareAlike IsNext "t1" (aloneDepot.catalog last) ∧
        catalog.chain "t1" "dt=2" = [.ofNumber 1] ∧ catalog.chain "t2" "a" = [.ofNumber 0] := by
  have hheld : FileCatalog.held depot.catalogPath
      (depotLaws.content depotMachine depot.catalogPath) = .ok depotCatalog :=
    follows_depotMachine.held_eq
  have hsound : depotLaws.sound depotMachine := ⟨orderly_depotTree, rfl⟩
  have hcatalog : aloneDepot.catalog depotMachine = depotCatalog := FileGrounds.catalog_eq hheld
  have hlaunch : ((Operator.new (.new "events" (.ofLocation "events"))).launch
      aloneDepot.store false : MachineM _) depotMachine = ((.ok (), eventsAlone), aloneBegun) :=
    rfl
  have hdrawn : ((Visit.transcript (deskRouter.visits depotEvents depotDesk)).flatMap
      Exchange.drawn).Nodup := by
    decide +kernel
  have hdrawn' : ((eventsAlone.transcript (Desk.servicesFinding (depotFound "events")) memoryStore
      (depotEvents.filter (·.concerns "events")) depotDesk).flatMap Exchange.drawn).Nodup := by
    decide +kernel
  have hfailure : ∀ exchange ∈ eventsAlone.transcript (Desk.servicesFinding (depotFound "events"))
      memoryStore (depotEvents.filter (·.concerns "events")) depotDesk,
        exchange.isFailure = false := by
    decide +kernel
  have hsurveys : surveys (Visit.transcript (Visit.ofTable "events"
      (deskRouter.visits depotEvents depotDesk))) =
        [⟨.list "events/dt=2", .ok [.file "events/dt=2/part-0.parquet" 10]⟩,
          ⟨.freshId, .ofNumber 1⟩] := by
    decide +kernel
  have hsurveys' : surveys (eventsAlone.transcript (Desk.servicesFinding (depotFound "events"))
      memoryStore (depotEvents.filter (·.concerns "events")) depotDesk) =
        [⟨.list "events/dt=2", .ok [.file "events/dt=2/part-0.parquet" 10]⟩,
          ⟨.freshId, .ofNumber 0⟩] := by
    decide +kernel
  have hanswers : Concordant IsNext (depotRun.surveysOf "events")
      (surveys (eventsAlone.transcript aloneDepot.services aloneDepot.store
        (depotEvents.filter (·.concerns "events")) aloneBegun)) := by
    rw [RouterRun.surveysOf, visits_depotRun, lockstep_alone.1, hsurveys, hsurveys']
    exact fun _ ↦ ⟨rfl, fun _ ↦ ⟨⟨0, rfl, rfl⟩, trivial⟩⟩
  have hshare : depotCatalog.ShareAlike IsNext "t1" depotCatalog := ⟨fun _ ↦ .none, .nil⟩
  have hlookup : (aloneDepot.catalog depotMachine).lookup "events" = .ok (depotTable "events") := by
    rw [hcatalog]
    rfl
  have hunseen : depotCatalog.Unseen (Visit.transcript depotRun.visits) := by
    rw [visits_depotRun]
    exact unseen_depotCatalog hdrawn
  have hunseen' : (aloneDepot.catalog depotMachine).Unseen
      (eventsAlone.transcript aloneDepot.services aloneDepot.store
        (depotEvents.filter (·.concerns "events")) aloneBegun) := by
    rw [hcatalog, lockstep_alone.1]
    exact unseen_depotCatalog hdrawn'
  have hfailure' : ∀ exchange ∈ eventsAlone.transcript aloneDepot.services aloneDepot.store
        (depotEvents.filter (·.concerns "events")) aloneBegun, exchange.isFailure = false := by
    rw [lockstep_alone.1]
    exact hfailure
  have hshare' : depotCatalog.ShareAlike IsNext "t1" (aloneDepot.catalog depotMachine) := by
    rw [hcatalog]
    exact hshare
  obtain ⟨route, other, last, delivered, hroute, hdrive, hpending, hquorum, hwatermark, hcount,
    hstored, catalog, hfinal, hends⟩ := tables_do_not_interfere validate_depot clear_depot depotRun
      hsound hheld resolves_depot hunseen mem_depot aloneDepot ⟨hsound, _, hheld⟩ hlookup hshare'
      rfl hlaunch hunseen' hfailure' hanswers
  obtain ⟨hchain, hchain'⟩ := chains_depotRun hfinal
  exact ⟨commitCount_depotRun, route, other, last, delivered, hroute, hdrive, hpending, hquorum,
    hwatermark, hcount, hstored, catalog, hfinal, hends, hchain, hchain'⟩

end Stores

/-! ## Two tables on a machine -/

/-- Two tables that have their snapshots in the root directory, where the catalog is as well. -/
def twoTables (catalogPath : String) : Config :=
  { Config.empty with
    tables := .ofList [(⟨"events"⟩, ⟨.ofLocation "/events", none, false, .empty⟩),
      (⟨"users"⟩, ⟨.ofLocation "/users", none, false, .empty⟩)]
    catalogPath
    stateDir := "/" }

/-- The catalog of the two, with one version of a partition of the first. -/
def twoTablesCatalog : Catalog where
  tables := .ofList [("events", ⟨"t1", "events", "/events", ""⟩),
    ("users", ⟨"t2", "users", "/users", ""⟩)]
  partitions := SortedMap.empty.insert "t1"
    (SortedMap.empty.insert "dt=1" ⟨0, .append, [.ofNumber 7]⟩)
  manifests := .empty

/-- A machine with the catalog in the root directory and no other file. -/
def catalogMachine (name : String) : Machine :=
  { bareMachine with
    files := (FileTree.empty []).insertNode [name]
      (.file (.bytes (FileCatalog.encode twoTablesCatalog))) }

theorem linkFree_catalogMachine (name : String) : (catalogMachine name).files.LinkFree :=
  FileTree.linkFree_empty.insertNode [name] nofun

/-- All files in the root directory have a place beside the catalog. -/
theorem hosts_catalogMachine (name : String) {path file draft : String}
    (hpath : FileTree.InRoot path file) (hdraft : FileTree.InRoot (draftPath path) draft)
    (hparent : parent? path = some "/") :
    (catalogMachine name).files.Hosts path [file] [draft] := by
  have hdirs (other : String) : (catalogMachine name).files.node? [other] ≠ some .dir :=
    fun hdir ↦ FileTree.node?_empty_ne_dir other
      ((FileTree.node?_insertNode_eq_dir (FileTree.node?_empty_ne_dir name) [other]).1 hdir)
  exact FileTree.hosts_of_inRoot (linkFree_catalogMachine name) hpath hdraft hparent
    (hdirs file) (hdirs draft)

theorem hosts_events (name : String) : (catalogMachine name).files.Hosts
    (TableKey.statePath ⟨"events"⟩ "/") ["events.json"] ["events.json.tmp"] :=
  hosts_catalogMachine name (by decide) (by decide +kernel) (by decide +kernel)

theorem hosts_users (name : String) : (catalogMachine name).files.Hosts
    (TableKey.statePath ⟨"users"⟩ "/") ["users.json"] ["users.json.tmp"] :=
  hosts_catalogMachine name (by decide) (by decide +kernel) (by decide +kernel)

/-- The first of two writers of a table reports a partition. -/
def halfReport (name partition : String) : HostEvent :=
  .record ⟨1, 0, 2, name, "", .ofList [partition]⟩

/-- Neither table has all reports when the checkpoint comes. -/
def twoTablesEvents : List HostEvent :=
  [halfReport "events" "dt=2", halfReport "users" "a", .watermark 40, .checkpoint 1]

def onePending (partition : String) : Pending :=
  ⟨.ofList [partition], none⟩

/-- A coordinator that waits for the second report. -/
def waiting (name location partition : String) : Coordinator :=
  ⟨name, .ofLocation location, some (onePending partition),
    some ⟨2, by decide, SequencedMap.empty.insert 1 (.ofList [0])⟩, 40⟩

def eventsCoordinator : Coordinator :=
  waiting "events" "/events" "dt=2"

def usersCoordinator : Coordinator :=
  waiting "users" "/users" "a"

/-- The services of a table on the disk. -/
def diskServices (catalogPath : String) : Services MachineM :=
  ⟨FileCatalog.client catalogPath, Location.disk.listing⟩

def diskRoute (catalogPath : String) (machine : Machine) (key : TableKey)
    (coordinator : Coordinator) : Route MachineM where
  key
  services := diskServices catalogPath
  store := fileStore (key.statePath "/")
  hasState := machine.files.isFileAt (key.statePath "/")
  operator := .new coordinator

/-- The router of the two tables, built on some machine. -/
def diskRouter (catalogPath : String) (machine : Machine) (first second : Coordinator) :
    Router MachineM :=
  ⟨⟨[("events", diskRoute catalogPath machine ⟨"events"⟩ first),
    ("users", diskRoute catalogPath machine ⟨"users"⟩ second)], by simp⟩⟩

/-- A machine on which both have stored their pending partitions. -/
def Machine.savedBoth (machine : Machine) : Machine :=
  (machine.saved ["events.json"] ["events.json.tmp"] eventsCoordinator (onePending "dt=2")
    1).saved ["users.json"] ["users.json.tmp"] usersCoordinator (onePending "a") 1

theorem deliver_checkpoint_diskRouter (catalogPath name : String) {machine : Machine}
    (hfiles : machine.files = (catalogMachine name).files) :
    ((diskRouter catalogPath (catalogMachine name) eventsCoordinator usersCoordinator).deliver
        (.checkpoint 1) : MachineM _) machine =
      ((.ok (), diskRouter catalogPath (catalogMachine name) eventsCoordinator usersCoordinator),
        machine.savedBoth) := by
  have hevents : machine.files.Hosts (TableKey.statePath ⟨"events"⟩ "/") ["events.json"]
      ["events.json.tmp"] :=
    hfiles ▸ hosts_events name
  have husers : machine.files.Hosts (TableKey.statePath ⟨"users"⟩ "/") ["users.json"]
      ["users.json.tmp"] :=
    hfiles ▸ hosts_users name
  have hfirst := Operator.deliver_checkpoint_of_hosts hevents (.new eventsCoordinator) rfl
    (diskServices catalogPath) 1
  have hsecond := Operator.deliver_checkpoint_of_hosts
    (Machine.hosts_saved husers hevents eventsCoordinator (onePending "dt=2") 1)
    (.new usersCoordinator) rfl (diskServices catalogPath) 1
  exact Router.forEach_cons_eq_ok.2 ⟨_, _, hfirst, Router.forEach_cons_eq_ok.2 ⟨_, _, hsecond, rfl⟩⟩

/-- A run of the two tables in which nothing is committed. -/
def twoTablesRun (catalogPath name : String) :
    RouterRun Machine (twoTables catalogPath) false twoTablesEvents :=
  let machine := catalogMachine name
  let begun : Machine :=
    { machine with
      ledger := (machine.ledger.record (.pendingPartitions "events" 0)).record
        (.pendingPartitions "users" 0) }
  { opening := machine
    built := machine
    begun
    last := begun.savedBoth
    router := diskRouter catalogPath machine (.new "events" (.ofLocation "/events"))
      (.new "users" (.ofLocation "/users"))
    launched := diskRouter catalogPath machine
      ((Coordinator.new "events" (.ofLocation "/events")).start .empty)
      ((Coordinator.new "users" (.ofLocation "/users")).start .empty)
    final := diskRouter catalogPath machine eventsCoordinator usersCoordinator
    delivered := 4
    hbuild := rfl
    hlaunch := rfl
    hdrive := by
      have hfiles : begun.files = machine.files := rfl
      change (driveWith Router.deliver 3 [.checkpoint 1]
        (diskRouter catalogPath machine eventsCoordinator usersCoordinator) : MachineM _) begun = _
      exact driveWith_cons_eq_ok.2
        ⟨_, _, deliver_checkpoint_diskRouter catalogPath name hfiles, rfl⟩ }

theorem held_catalogMachine {catalogPath name : String} (h : FileTree.InRoot catalogPath name) :
    FileCatalog.held catalogPath ((catalogMachine name).files.read catalogPath).toOption =
      .ok twoTablesCatalog := by
  rw [h.read_eq (linkFree_catalogMachine name), FileTree.contentAt, catalogMachine,
    FileTree.node?_insertNode_self _ (List.cons_ne_nil _ _)]
  exact FileCatalog.decode_encode _ _

/-- The operator of the first table, which waits for events. -/
def startedEvents : Operator :=
  .new ((Coordinator.new "events" (.ofLocation "/events")).start .empty)

/-- The first of the two tables alone, on a machine of its own. -/
def aloneMachine : Machine :=
  { catalogMachine "catalog.json" with
    ledger := MetricLedger.empty.record (.pendingPartitions "events" 0) }

/-- The store of the first table. -/
def eventsStore : SnapshotStore MachineM :=
  fileStore ((twoTables "/catalog.json").statePath ⟨"events"⟩)

/-- The report about the other table is left out. -/
theorem filter_twoTablesEvents : twoTablesEvents.filter (·.concerns "events") =
    [halfReport "events" "dt=2", .watermark 40, .checkpoint 1] := by
  decide

theorem drive_alone :
    (startedEvents.drive (diskServices "/catalog.json") eventsStore
        (twoTablesEvents.filter (·.concerns "events")) : MachineM _) aloneMachine =
      ((.ok 3, .new eventsCoordinator), aloneMachine.saved ["events.json"] ["events.json.tmp"]
        eventsCoordinator (onePending "dt=2") 1) := by
  have hevents : aloneMachine.files.Hosts ((twoTables "/catalog.json").statePath ⟨"events"⟩)
      ["events.json"] ["events.json.tmp"] :=
    hosts_events "catalog.json"
  have hcheckpoint := Operator.deliver_checkpoint_of_hosts hevents (.new eventsCoordinator) rfl
    (diskServices "/catalog.json") 1
  rw [filter_twoTablesEvents]
  change (driveWith (Operator.deliver (diskServices "/catalog.json") eventsStore) 2
    [.checkpoint 1] (.new eventsCoordinator) : MachineM _) aloneMachine = _
  exact driveWith_cons_eq_ok.2 ⟨_, _, hcheckpoint, rfl⟩

def tableNamed (name : String) : Table :=
  if name = "events" then ⟨"t1", "events", "/events", ""⟩ else ⟨"t2", "users", "/users", ""⟩

theorem resolves_twoTables (catalogPath name : String) :
    (twoTablesRun catalogPath name).Resolves twoTablesCatalog tableNamed where
  found := by
    change ∀ name ∈ ["events", "users"], _
    decide
  distinct := by
    change ∀ name ∈ ["events", "users"], ∀ other ∈ ["events", "users"],
      (tableNamed name).id = (tableNamed other).id → name = other
    decide

/-- A catalog in the file through which the snapshots of a table are written is gone after a
checkpoint, and with it the version that the table keeps alone. -/
theorem draft_of_snapshots_is_catalog :
    (twoTables "/events.json.tmp").validate = .ok () ∧
      (∀ entry ∈ (twoTables "/events.json.tmp").tables.entries,
        "/events.json.tmp" ≠ (twoTables "/events.json.tmp").statePath entry.1) ∧
      (twoTablesRun "/events.json.tmp" "events.json.tmp").Resolves twoTablesCatalog tableNamed ∧
      FileCatalog.held "/events.json.tmp"
        ((twoTablesRun "/events.json.tmp" "events.json.tmp").built.files.read
          "/events.json.tmp").toOption = .ok twoTablesCatalog ∧
      FileCatalog.held "/events.json.tmp"
        ((twoTablesRun "/events.json.tmp" "events.json.tmp").last.files.read
          "/events.json.tmp").toOption = .ok .empty ∧
      ∃ other last delivered,
        (startedEvents.drive (diskServices "/catalog.json") eventsStore
          (twoTablesEvents.filter (·.concerns "events")) : MachineM _) aloneMachine =
            ((.ok delivered, other), last) ∧
        FileCatalog.held "/catalog.json" (last.files.read "/catalog.json").toOption =
          .ok twoTablesCatalog ∧
        ∀ R, ¬Catalog.empty.ShareAlike R "t1" twoTablesCatalog := by
  have hcatalog : FileTree.InRoot "/catalog.json" "catalog.json" := by decide +kernel
  have hdraft : FileTree.InRoot "/events.json.tmp" "events.json.tmp" := by decide +kernel
  refine ⟨by decide +kernel, by decide +kernel, resolves_twoTables _ _,
    held_catalogMachine hdraft, ?_, _, _, _, drive_alone, ?_, fun R hshare ↦ ?_⟩
  · have hevents : (twoTablesRun "/events.json.tmp" "events.json.tmp").begun.files.Hosts
        (TableKey.statePath ⟨"events"⟩ "/") ["events.json"] ["events.json.tmp"] := hosts_events _
    have husers : (twoTablesRun "/events.json.tmp" "events.json.tmp").begun.files.Hosts
        (TableKey.statePath ⟨"users"⟩ "/") ["users.json"] ["users.json.tmp"] := hosts_users _
    have hgone := (Machine.read_saved_of_ne (Machine.hosts_saved husers hevents _ _ _) hdraft
      (by decide) (by decide) usersCoordinator (onePending "a") 1).trans
        (Machine.read_saved_draft hevents hdraft (by decide) eventsCoordinator
          (onePending "dt=2") 1)
    exact congrArg (FileCatalog.held "/events.json.tmp") hgone
  · have hevents : aloneMachine.files.Hosts (TableKey.statePath ⟨"events"⟩ "/") ["events.json"]
        ["events.json.tmp"] := hosts_events _
    rw [Machine.read_saved_of_ne hevents hcatalog (by decide) (by decide)]
    exact held_catalogMachine hcatalog
  · have hversion := hshare.versions "dt=1"
    have hnone : (Catalog.empty.versions "t1").find? "dt=1" = none := by decide
    have hsome : (twoTablesCatalog.versions "t1").find? "dt=1" =
        some ⟨0, .append, [.ofNumber 7]⟩ := by decide
    rw [hnone, hsome] at hversion
    cases hversion

end CommitCoordinator
