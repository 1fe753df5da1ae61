import CommitCoordinator.Catalog.File
import CommitCoordinator.Coordinator.Operator
import CommitCoordinator.Router.Error

/-!
# Routing events to tables

A router holds one operator for each configured table, all of them over one catalog. A report goes
to the operator of the table that it names; watermarks and checkpoints go to all of them in the
order of the configuration, up to the first that fails.
-/

namespace CommitCoordinator

open Storage

/-- The operator of a table with what it works with. -/
structure Route (m : Type → Type) where
  key : TableKey
  services : Services m
  store : SnapshotStore m
  /-- Whether a snapshot was stored when the router was built. -/
  hasState : Bool
  operator : Operator

/-- The routes under the names of their tables in the catalog. -/
structure Router (m : Type → Type) where
  routes : SequencedMap String (Route m)

namespace Router

variable {m : Type → Type}

def empty : Router m :=
  ⟨.empty⟩

/-- The number of commits of all tables. -/
def commitCount (router : Router m) : Nat :=
  router.routes.values.foldl (fun total route ↦ total + route.operator.commitCount) 0

/-- Replaces the operator of a route. -/
def setOperator (router : Router m) (name : String) (route : Route m) (operator : Operator) :
    Router m :=
  ⟨router.routes.insert name { route with operator }⟩

variable [Monad m]

/-- Runs a step on the routes in order, up to the first that fails. -/
def forEach (step : Route m → m (Except CommitError Unit × Operator)) :
    List (String × Route m) → Router m → m (Except RunError Unit × Router m)
  | [], router => return (.ok (), router)
  | (name, route) :: rest, router => do
    let (result, operator) ← step route
    let router := router.setOperator name route operator
    match result with
    | .ok () => forEach step rest router
    | .error e => return (.error (.commit route.key e), router)

/-! ## Building -/

section Building

variable [Url.DomainNames] [MonadFileSystem m] [MonadObjectStore m] [MonadMetrics m]
  [MonadFresh m]

/-- Adds a table to the catalog if its configuration asks for it. -/
def ensureTable (config : Config) (name : String) (table : TableConfig) :
    ExceptT RunError m Unit := do
  if table.createIfMissing then
    let id ← (freshId : m Uuid)
    let _ ← ExceptT.adapt .catalogSetup <| ExceptT.mk <|
      FileCatalog.ensure config.catalogPath (.create id name table.options.location)

/-- The route of a table. -/
def routeOf (config : Config) (key : TableKey) (table : TableConfig) :
    ExceptT RunError m (Route m) := do
  let location ← ExceptT.mk (pure
    ((Location.of table.options.location table.storageOptions).mapError (.storageSetup key)))
  let hasState ← (isFile (config.statePath key) : m Bool)
  return {
    key
    services := ⟨FileCatalog.client config.catalogPath, location.listing⟩
    store := fileStore (config.statePath key)
    hasState
    operator := .new (.new key.text table.options) }

/-- Adds the route of a configured table, whose name in the catalog has to be new. -/
def addTable (config : Config) (router : Router m) (entry : TableKey × TableConfig) :
    ExceptT RunError m (Router m) := do
  let (key, table) := entry
  let name := table.resolvedName key
  if router.routes.contains name then throw (.duplicateTable name)
  else
    ensureTable config name table
    return ⟨router.routes.insert name (← routeOf config key table)⟩

/-- The router of a configuration. -/
def ofConfig (config : Config) : m (Except RunError (Router m)) :=
  (config.tables.entries.foldlM (addTable config) empty).run

end Building

/-! ## Running -/

variable [MonadMetrics m]

/-- Initializes the operators; those with a stored snapshot take it up if asked to. -/
def launch (restored : Bool) (router : Router m) : m (Except RunError Unit × Router m) :=
  forEach (fun route ↦ route.operator.launch route.store (restored && route.hasState))
    router.routes.entries router

variable [MonadFresh m] [MonadClock m]

/-- Delivers an event to an operator. -/
def Route.deliver (event : HostEvent) (route : Route m) : m (Except CommitError Unit × Operator) :=
  route.operator.deliver route.services route.store event

def deliver (event : HostEvent) (router : Router m) : m (Except RunError Unit × Router m) :=
  match event with
  | .record report =>
    match router.routes.find? report.table with
    | some route => forEach (Route.deliver event) [(report.table, route)] router
    | none => return (.error (.unknownTable report.table), router)
  | _ => forEach (Route.deliver event) router.routes.entries router

end Router

end CommitCoordinator
