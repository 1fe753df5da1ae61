import CommitCoordinator.Catalog.File
import CommitCoordinator.Catalog.Memory
import CommitCoordinator.Proofs.Storage.Replacing

/-!
# Calls of catalogs

Catalogs in files and in memory offer the same operations. Both of them do what a call does to the
contents of a catalog: a file is read before and, if the contents change, replaced afterwards.
-/

namespace CommitCoordinator

open Storage

/-- A call of one of the operations of a catalog. -/
inductive CatalogCall where
  | register (table : Table)
  | ensure (table : Table)
  | lookup (name : String)
  | append (request : AppendRequest) (keep : Bool) (mode : CommitMode)
  | insert (manifests : List Manifest)

/-- What a catalog answers to a call that does not fail. -/
inductive CatalogReply where
  | done
  | found (table : Table)
  | answered (accepted : Bool)
deriving DecidableEq

/-- The outcome of a call. -/
abbrev CatalogResult : Type :=
  Except CatalogError CatalogReply

/-- Answers that are embedded alike in the answers of all calls are the same. -/
theorem CatalogResult.eq_of_map {α : Type} {answer other : Except CatalogError α}
    {f : α → CatalogReply} (hf : Function.Injective f) (h : answer.map f = other.map f) :
    answer = other := by
  cases answer <;> cases other <;> simp_all [Except.map, hf.eq_iff]

namespace CatalogCall

/-- The answer to a call and the contents after it, unless they stay as they are. -/
def apply (catalog : Catalog) :
    CatalogCall → Except CatalogError (CatalogReply × Option Catalog)
  | register table => do return (.done, some (← catalog.register table))
  | ensure table =>
    match catalog.table? table.name with
    | some existing => .ok (.found existing, none)
    | none => do return (.found table, some (← catalog.register table))
  | lookup name => do return (.found (← catalog.lookup name), none)
  | append request keep mode =>
    match catalog.append? request keep mode with
    | some changed => .ok (.answered true, some changed)
    | none => .ok (.answered false, none)
  | insert manifests => .ok (.done, some (catalog.insertManifests manifests))

section Memory

variable {m : Type → Type} [Monad m] [MonadStateOf Catalog m]

/-- The call on the catalog in the state. A table is ensured by a lookup and, if it fails, by a
registration. -/
def inMemory : CatalogCall → m CatalogResult
  | register table => do return (← MemoryCatalog.register table).map fun _ ↦ .done
  | ensure table => do
    match ← MemoryCatalog.lookup table.name with
    | .ok existing => return .ok (.found existing)
    | .error _ => return (← MemoryCatalog.register table).map fun _ ↦ .found table
  | lookup name => do return (← MemoryCatalog.lookup name).map .found
  | append request keep mode => do
    return (← MemoryCatalog.append request keep mode).map .answered
  | insert manifests => do return (← MemoryCatalog.insert manifests).map fun _ ↦ .done

end Memory

section File

variable {m : Type → Type} [Monad m] [MonadFileSystem m]

/-- The call on the catalog in a file. A handle of such a catalog is nothing but the path, so
calls through different handles are calls with the same path. -/
def onFile (path : String) : CatalogCall → m CatalogResult
  | register table => do return (← FileCatalog.register path table).map fun _ ↦ .done
  | ensure table => do return (← FileCatalog.ensure path table).map .found
  | lookup name => do return (← FileCatalog.lookup path name).map .found
  | append request keep mode => do
    return (← FileCatalog.append path request keep mode).map .answered
  | insert manifests => do return (← FileCatalog.insert path manifests).map fun _ ↦ .done

/-- Reads the file and, if the call changes the contents, replaces it. -/
def rewrite (path : String) (call : CatalogCall) : ExceptT CatalogError m CatalogReply := do
  let catalog ← FileCatalog.read path
  match call.apply catalog with
  | .error e => throw e
  | .ok (reply, none) => return reply
  | .ok (reply, some changed) =>
    FileCatalog.write path changed
    return reply

end File

/-! ## What a call can do -/

/-- A call fails for a name that is taken or unknown, leaves the contents as they are, or changes
them; a call that changes them is not answered with a refusal. -/
inductive Outcome : Except CatalogError (CatalogReply × Option Catalog) → Prop where
  | taken (name : String) : Outcome (.error (.tableExists name))
  | unknown (name : String) : Outcome (.error (.tableNotFound name))
  | kept (reply : CatalogReply) : Outcome (.ok (reply, none))
  | changed {reply : CatalogReply} (catalog : Catalog) (h : reply ≠ .answered false) :
      Outcome (.ok (reply, some catalog))

theorem outcome_register (catalog : Catalog) (table : Table) {reply : CatalogReply}
    (h : reply ≠ .answered false) :
    Outcome (do return (reply, some (← catalog.register table))) := by
  unfold Catalog.register
  cases catalog.register? table with
  | none => exact .taken table.name
  | some changed => exact .changed changed h

theorem outcome_apply (call : CatalogCall) (catalog : Catalog) : Outcome (call.apply catalog) := by
  cases call with
  | register table => exact outcome_register catalog table nofun
  | ensure table =>
    rw [apply]
    cases catalog.table? table.name with
    | some existing => exact .kept (.found existing)
    | none => exact outcome_register catalog table nofun
  | lookup name =>
    rw [apply, Catalog.lookup]
    cases catalog.table? name with
    | some table => exact .kept (.found table)
    | none => exact .unknown name
  | append request keep mode =>
    rw [apply]
    cases catalog.append? request keep mode with
    | some changed => exact .changed changed (by decide)
    | none => exact .kept (.answered false)
  | insert manifests => exact .changed _ nofun

/-! ## Calls in memory -/

theorem memory_register (table : Table) (catalog : Catalog) :
    (MemoryCatalog.register table : StateM Catalog _) catalog =
      match catalog.register table with
      | .error e => (.error e, catalog)
      | .ok changed => (.ok (), changed) := by
  have hget : (getThe Catalog : StateM Catalog Catalog) catalog = (catalog, catalog) := rfl
  rw [MemoryCatalog.register, state_bind, hget]
  cases catalog.register table <;> rfl

theorem memory_append (request : AppendRequest) (keep : Bool) (mode : CommitMode)
    (catalog : Catalog) :
    (MemoryCatalog.append request keep mode : StateM Catalog _) catalog =
      match catalog.append? request keep mode with
      | none => (.ok false, catalog)
      | some changed => (.ok true, changed) := by
  unfold MemoryCatalog.append
  change (match catalog.append? request keep mode with
    | some changed => (do set changed; return .ok true)
    | none => return .ok false : StateM Catalog (Except CatalogError Bool)) catalog = _
  cases catalog.append? request keep mode <;> rfl

/-- In memory, a call changes the contents at once. -/
theorem inMemory_eq (call : CatalogCall) (catalog : Catalog) :
    (call.inMemory : StateM Catalog CatalogResult) catalog =
      match call.apply catalog with
      | .error e => (.error e, catalog)
      | .ok (reply, changed) => (.ok reply, changed.getD catalog) := by
  cases call with
  | register table =>
    rw [inMemory, state_bind, memory_register, apply]
    cases catalog.register table <;> rfl
  | ensure table =>
    change (match catalog.lookup table.name with
      | .ok existing => pure (.ok (.found existing))
      | .error _ => do return (← MemoryCatalog.register table).map fun _ ↦ .found table :
        StateM Catalog CatalogResult) catalog = _
    rw [apply, Catalog.lookup]
    cases catalog.table? table.name with
    | some existing => rfl
    | none =>
      change (do return (← MemoryCatalog.register table).map fun _ ↦ .found table :
        StateM Catalog CatalogResult) catalog = _
      rw [state_bind, memory_register]
      cases catalog.register table <;> rfl
  | lookup name =>
    change ((catalog.lookup name).map CatalogReply.found, catalog) = _
    rw [apply]
    cases catalog.lookup name <;> rfl
  | append request keep mode =>
    rw [inMemory, state_bind, memory_append, apply]
    cases catalog.append? request keep mode <;> rfl
  | insert manifests => rfl

/-! ## Calls on a file -/

section File

variable {m : Type → Type} [Monad m] [LawfulMonad m] {α : Type}

theorem except_bind {β : Type} (result : Except CatalogError α)
    (f : α → ExceptT CatalogError m β) :
    ExceptT.mk (pure result) >>= f = match result with
      | .error e => throw e
      | .ok value => f value := by
  cases result with
  | error e =>
    apply ExceptT.ext
    rw [ExceptT.run_bind, ExceptT.run_mk, pure_bind, ExceptT.run_throw]
  | ok value => exact pure_bind value f

theorem map_throw (f : α → CatalogReply) (e : CatalogError) :
    f <$> (throw e : ExceptT CatalogError m α) = throw e := by
  apply ExceptT.ext
  rw [ExceptT.run_map, ExceptT.run_throw, map_pure]
  rfl

theorem run_map (f : α → CatalogReply) (x : ExceptT CatalogError m α) :
    (do return (← x.run).map f : m CatalogResult) = (f <$> x).run := by
  rw [ExceptT.run_map, bind_pure_comp]

/-- In a file, a call reads the contents and writes them if they change. -/
theorem onFile_eq [MonadFileSystem m] (path : String) (call : CatalogCall) :
    (call.onFile path : m CatalogResult) = (call.rewrite path).run := by
  cases call with
  | register table =>
    rw [onFile, FileCatalog.register, run_map, map_bind, rewrite]
    congr 1
    refine bind_congr fun catalog ↦ ?_
    rw [except_bind, apply]
    cases catalog.register table with
    | error e => exact map_throw _ e
    | ok changed => exact map_eq_pure_bind _ _
  | ensure table =>
    rw [onFile, FileCatalog.ensure, run_map, map_bind, rewrite]
    congr 1
    refine bind_congr fun catalog ↦ ?_
    rw [apply, except_bind]
    cases catalog.table? table.name with
    | some existing => exact map_pure _ existing
    | none =>
      cases catalog.register table with
      | error e => exact map_throw _ e
      | ok changed =>
        change _ <$> (FileCatalog.write path changed >>= _) = _
        rw [map_bind]
        refine bind_congr fun _ ↦ map_pure _ table
  | lookup name =>
    rw [onFile, FileCatalog.lookup, run_map, map_bind, rewrite]
    congr 1
    refine bind_congr fun catalog ↦ ?_
    rw [apply]
    cases catalog.lookup name with
    | error e => exact map_throw _ e
    | ok table => exact map_pure _ table
  | append request keep mode =>
    rw [onFile, FileCatalog.append, run_map, map_bind, rewrite]
    congr 1
    refine bind_congr fun catalog ↦ ?_
    rw [apply]
    cases catalog.append? request keep mode with
    | none => exact map_pure _ false
    | some changed =>
      change _ <$> (FileCatalog.write path changed >>= _) = _
      rw [map_bind]
      refine bind_congr fun _ ↦ map_pure _ true
  | insert manifests =>
    rw [onFile, FileCatalog.insert, run_map, map_bind, rewrite]
    congr 1

end File

end CatalogCall

end CommitCoordinator
