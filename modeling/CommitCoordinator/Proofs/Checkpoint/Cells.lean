import CommitCoordinator.Proofs.Checkpoint.Failing
import CommitCoordinator.Proofs.Failover.Restored
import CommitCoordinator.Proofs.Router.Building

/-!
# Stores of different tables

The stores in the files of a configuration behave like cells of memory, one for each table. A store
that fails does nothing to the cells, whatever it leaves in its draft, and a store for one table is
not seen by the others.
-/

namespace CommitCoordinator

open Storage FileTree

/-! ## Requests -/

/-- What is asked of a store. -/
inductive StoreCall where
  | load
  | store (snapshots : List Snapshot)
deriving DecidableEq, Repr

inductive StoreReply where
  | loaded (result : Except StateError (List Snapshot))
  | stored (result : Except StateError Unit)
deriving DecidableEq, Repr

def StoreCall.on {m : Type → Type} [Monad m] (snapshots : SnapshotStore m) :
    StoreCall → m StoreReply
  | load => do return .loaded (← snapshots.load)
  | store list => do return .stored (← snapshots.store list)

section Calls

variable {σ : Type} {store : SnapshotStore (StateM σ)} {s s' : σ}

theorem StoreCall.on_load {result : Except StateError (List Snapshot)}
    (h : store.load s = (result, s')) : StoreCall.load.on store s = (.loaded result, s') := by
  simp only [StoreCall.on, state_bind, h]
  rfl

theorem StoreCall.on_store {snapshots : List Snapshot} {result : Except StateError Unit}
    (h : store.store snapshots s = (result, s')) :
    (StoreCall.store snapshots).on store s = (.stored result, s') := by
  simp only [StoreCall.on, state_bind, h]
  rfl

end Calls

/-- A call for a table, and the fault that it meets if it is to replace the file. A handle of a
store is nothing but the path of the file, so calls through old and new handles are the same. -/
structure StoreRequest where
  key : TableKey
  call : StoreCall
  fault : Option ReplaceFault
deriving DecidableEq, Repr

/-- Answers a request from the file of the table. -/
def StoreRequest.run (config : Config) (request : StoreRequest) : MachineM StoreReply :=
  fun machine ↦
    let program : StateM FailingMachine StoreReply :=
      request.call.on (fileStore (config.statePath request.key))
    let (reply, s) := program ⟨machine, request.fault⟩
    (reply, s.machine)

/-- A request that was answered, and the machine around it. -/
structure StoreStep where
  request : StoreRequest
  before : Machine
  reply : StoreReply
  after : Machine

namespace StoreStep

def of (config : Config) (machine : Machine) (request : StoreRequest) : StoreStep :=
  ⟨request, machine, (request.run config machine).1, (request.run config machine).2⟩

/-- The snapshots that were stored for a table without a failure. -/
def stored? (key : TableKey) (step : StoreStep) : Option (List Snapshot) :=
  match step.request.call, step.reply with
  | .store snapshots, .stored (.ok ()) => if step.request.key = key then some snapshots else none
  | _, _ => none

theorem stored?_of_ne {key : TableKey} {step : StoreStep} (h : step.request.key ≠ key) :
    step.stored? key = none := by
  unfold stored?
  split
  · exact if_neg h
  · rfl

end StoreStep

namespace Config

/-- The requests on a machine, one after the other. -/
def storeSteps (config : Config) (machine : Machine) : List StoreRequest → List StoreStep
  | [] => []
  | request :: requests =>
    let step := StoreStep.of config machine request
    step :: config.storeSteps step.after requests

/-- Whether the file system takes the path of a table and the name of its file. -/
def Admits (config : Config) (key : TableKey) : Prop :=
  key ∈ config.tables.keys ∧ Usable (config.statePath key) ∧
    key.stateFileName.utf8ByteSize ≤ maxPartLength

instance (config : Config) (key : TableKey) : Decidable (config.Admits key) :=
  inferInstanceAs (Decidable (_ ∧ _ ∧ _))

end Config

/-- The snapshots of the last store for a table that did not fail. -/
def lastStored? (key : TableKey) (steps : List StoreStep) : Option (List Snapshot) :=
  (steps.filterMap (StoreStep.stored? key)).getLast?

/-- The cell of memory of a table after the same stores as those that did not fail. -/
def cellAfter (key : TableKey) (steps : List StoreStep) : List Snapshot :=
  (steps.filterMap (StoreStep.stored? key)).foldl
    (fun cell snapshots ↦ (memoryStore.store snapshots : StateM _ _) cell |>.2) []

/-- The cell of a table holds what was stored last. -/
theorem cellAfter_eq (key : TableKey) (steps : List StoreStep) :
    cellAfter key steps = (lastStored? key steps).getD [] := by
  unfold cellAfter lastStored?
  generalize steps.filterMap (StoreStep.stored? key) = lists
  cases lists using List.reverseRecOn with
  | nil => rfl
  | append_singleton lists last =>
    rw [List.foldl_append, List.getLast?_concat]
    rfl

theorem lastStored?_append (key : TableKey) (steps : List StoreStep) (step : StoreStep) :
    lastStored? key (steps ++ [step]) = (step.stored? key).or (lastStored? key steps) := by
  unfold lastStored?
  rw [List.filterMap_append]
  cases hstored : step.stored? key with
  | none => simp [hstored]
  | some snapshots => simp [hstored]

/-! ## Files and cells -/

/-- Whether the files of the tables hold what was stored in some steps, and the directory of a
machine holds nothing else than files. -/
def Agrees (config : Config) (machine : Machine) (steps : List StoreStep) : Prop :=
  ∃ files, machine.files.Holds config.stateDir files ∧
    ∀ key : TableKey, (files key.stateFileName).map Content.toList =
      (lastStored? key steps).map FileStore.encode

section Steps

variable {config : Config} {machine : Machine} {steps : List StoreStep} {request : StoreRequest}
  {key other : TableKey}

theorem Config.Admits.hasSeparator_eq_false (h : config.Admits key)
    (hvalid : config.validate = .ok ()) : key.hasSeparator = false := by
  obtain ⟨entry, hentry, rfl⟩ := List.mem_map.1 h.1
  exact Config.hasSeparator_eq_false hvalid entry hentry

theorem isEntry_statePath (h : key.hasSeparator = false) (config : Config) :
    IsEntry config.stateDir key.stateFileName (config.statePath key) :=
  isEntry_childPath config.stateDir (TableKey.isFileName_stateFileName h).slash

/-- The file of a table is not the draft of another one. -/
theorem stateFileName_ne_draft (hother : other.hasSeparator = false) :
    key.stateFileName ≠ draftPath other.stateFileName := by
  intro heq
  have htext := congrArg String.toList heq
  rw [TableKey.toList_stateFileName,
    toList_draftPath (TableKey.isFileName_stateFileName hother)] at htext
  exact ne_draftName htext

/-- A load reads the file and leaves the machine alone. -/
theorem run_load_eq (config : Config) (key : TableKey) (fault : Option ReplaceFault)
    (machine : Machine) :
    StoreRequest.run config ⟨key, .load, fault⟩ machine =
      (.loaded (FileStore.loaded (config.statePath key) (ifPresent (config.statePath key)
        (machine.files.read (config.statePath key)))), machine) := by
  let s : FailingMachine := ⟨machine, fault⟩
  have hread : (readFile (config.statePath key) : StateM FailingMachine _) s =
      (machine.files.read (config.statePath key), s) := rfl
  let store : SnapshotStore (StateM FailingMachine) := fileStore (config.statePath key)
  have hload : store.load s = _ := FileStore.run_load (run_readIfPresent_eq hread)
  unfold StoreRequest.run
  dsimp only
  rw [StoreCall.on_load hload]

/-- What a load returns follows from the steps before it. -/
theorem run_load (h : Agrees config machine steps) (hkey : key.hasSeparator = false)
    (hadmits : config.Admits key) (fault : Option ReplaceFault) :
    StoreRequest.run config ⟨key, .load, fault⟩ machine =
      (.loaded (.ok ((lastStored? key steps).getD [])), machine) := by
  obtain ⟨files, hfiles, hcells⟩ := h
  obtain ⟨-, husable, hlength⟩ := hadmits
  have hcell := hcells key
  rw [run_load_eq, hfiles.read (isEntry_statePath hkey config)
    (TableKey.isFileName_stateFileName hkey) husable hlength]
  cases hstored : lastStored? key steps with
  | none =>
    rw [hstored, Option.map_none, Option.map_eq_none_iff] at hcell
    rw [hcell]
    rfl
  | some snapshots =>
    rw [hstored, Option.map_some, Option.map_eq_some_iff] at hcell
    obtain ⟨content, hfile, hcontent⟩ := hcell
    rw [hfile]
    dsimp only [ifPresent, FileStore.loaded]
    rw [hcontent, FileStore.decode_encode]
    rfl

/-- A request to store is answered as its file is replaced. -/
theorem run_store_of_replaceFile {snapshots : List Snapshot} {fault : Option ReplaceFault}
    {emitted : Machine} {result : Except FileFault Unit} {after : FailingMachine}
    (hemitted : emitted = ((emit (.checkpointStateSize (FileStore.encode snapshots).length) :
      MachineM Unit) machine).2)
    (h : (replaceFile (config.statePath key) (FileStore.encode snapshots) :
      ExceptT FileFault (StateM FailingMachine) _).run ⟨emitted, fault⟩ = (result, after)) :
    StoreRequest.run config ⟨key, .store snapshots, fault⟩ machine =
      (.stored (result.mapError FileStore.ofFault), after.machine) := by
  subst hemitted
  have hstore : (FileStore.store (config.statePath key) snapshots : StateM FailingMachine _)
      ⟨machine, fault⟩ = (result.mapError FileStore.ofFault, after) :=
    FileStore.run_store h
  unfold StoreRequest.run
  dsimp only
  rw [StoreCall.on_store hstore]

/-- A store touches the draft of its table, and the file if it succeeds. -/
theorem run_store {files : String → Option Content}
    (h : machine.files.Holds config.stateDir files) (hkey : key.hasSeparator = false)
    (snapshots : List Snapshot) (fault : Option ReplaceFault) :
    ∃ result after files',
      StoreRequest.run config ⟨key, .store snapshots, fault⟩ machine = (.stored result, after) ∧
      after.files.Holds config.stateDir files' ∧
      FailingMachine.Replaced files key.stateFileName (FileStore.encode snapshots)
        (result = .ok ()) files' := by
  let bytes := FileStore.encode snapshots
  let emitted := ((emit (.checkpointStateSize bytes.length) : MachineM Unit) machine).2
  have hemitted : (⟨emitted, fault⟩ : FailingMachine).Holds config.stateDir files := h
  obtain ⟨result, after, files', hreplace, hholds, hreplaced⟩ :=
    FailingMachine.holds_replaceFile hemitted (isEntry_statePath hkey config)
      (TableKey.isFileName_stateFileName hkey) (stateFileName_ne_draft hkey) bytes
  refine ⟨result.mapError FileStore.ofFault, after.machine, files',
    run_store_of_replaceFile rfl hreplace, hholds, hreplaced.congr_done ?_⟩
  cases result <;> simp [Except.mapError]

/-- A store that meets no fault is answered as its file is replaced on the machine. -/
theorem run_store_of_reliable {path : String} {snapshots : List Snapshot} {emitted after : Machine}
    {result : Except FileFault Unit} (hpath : config.statePath key = path)
    (hemitted : emitted = ((emit (.checkpointStateSize (FileStore.encode snapshots).length) :
      MachineM Unit) machine).2)
    (h : (replaceFile path (FileStore.encode snapshots) : ExceptT FileFault MachineM _).run
      emitted = (result, after)) :
    StoreRequest.run config ⟨key, .store snapshots, none⟩ machine =
      (.stored (result.mapError FileStore.ofFault), after) := by
  subst hpath
  have hreliable := FailingMachine.reliable_replaceFile (config.statePath key)
    (FileStore.encode snapshots) emitted
  rw [h] at hreliable
  exact run_store_of_replaceFile hemitted hreliable

/-- A step keeps the files and the cells in agreement. -/
theorem agrees_of_step (h : Agrees config machine steps) (hkey : request.key.hasSeparator = false)
    (hadmits : config.Admits request.key) :
    Agrees config (StoreStep.of config machine request).after
      (steps ++ [StoreStep.of config machine request]) := by
  obtain ⟨key, call, fault⟩ := request
  cases call with
  | load =>
    have hrun := run_load h hkey hadmits fault
    obtain ⟨files, hfiles, hcells⟩ := h
    refine ⟨files, ?_, ?_⟩
    · rw [StoreStep.of, hrun]
      exact hfiles
    · intro other
      rw [lastStored?_append]
      exact hcells other
  | store snapshots =>
    obtain ⟨files, hfiles, hcells⟩ := h
    obtain ⟨result, after, files', hrun, hfiles', hreplaced⟩ :=
      run_store hfiles hkey snapshots fault
    rw [StoreStep.of, hrun]
    refine ⟨files', hfiles', ?_⟩
    intro other
    rw [lastStored?_append]
    by_cases hsame : key = other
    · subst hsame
      cases result with
      | ok =>
        rw [hreplaced.stored rfl]
        simp [StoreStep.stored?, Content.toList]
      | error e =>
        rw [hreplaced.kept nofun]
        exact hcells key
    · have hname : other.stateFileName ≠ key.stateFileName := by
        intro heq
        exact TableKey.stateFileName_ne (Ne.symm hsame) (congrArg String.toList heq)
      rw [StoreStep.stored?_of_ne hsame, Option.none_or,
        hreplaced.others _ hname (stateFileName_ne_draft hkey)]
      exact hcells other

/-- The steps of a run agree with the files when they begin. -/
theorem agrees_of_storeSteps {requests : List StoreRequest} {front back : List StoreStep}
    {step : StoreStep} (h : Agrees config machine steps)
    (hvalid : config.validate = .ok ()) (hkeys : ∀ request ∈ requests, config.Admits request.key)
    (hsteps : config.storeSteps machine requests = front ++ step :: back) :
    Agrees config step.before (steps ++ front) ∧ step.request ∈ requests ∧
      step = StoreStep.of config step.before step.request := by
  induction requests generalizing machine steps front with
  | nil => cases front <;> cases hsteps
  | cons request requests ih =>
    cases front with
    | nil =>
      obtain ⟨rfl, -⟩ := List.cons.inj hsteps
      rw [List.append_nil]
      exact ⟨h, List.mem_cons_self, rfl⟩
    | cons first front =>
      obtain ⟨rfl, htail⟩ := List.cons.inj hsteps
      have hadmits := hkeys request List.mem_cons_self
      have hnext := agrees_of_step h (hadmits.hasSeparator_eq_false hvalid) hadmits
      obtain ⟨hbefore, hmem, hstep⟩ := ih hnext
        (fun request hrequest ↦ hkeys request (List.mem_cons_of_mem _ hrequest)) htail
      rw [List.append_assoc] at hbefore
      exact ⟨hbefore, List.mem_cons_of_mem _ hmem, hstep⟩

end Steps

/-- The stores in the files of a valid configuration, whose directory is empty or missing when they
are used first, behave like cells of memory, whatever of them fails in whatever step: each load
returns what was given to the last store for its table that succeeded, and no list if there was
none, like the cell of the table after the same stores. A store, failed or not, does not change what
is loaded for another table. -/
theorem stores_are_cells {config : Config} {machine : Machine} {requests : List StoreRequest}
    (hvalid : config.validate = .ok ())
    (hunused : machine.files.Unused config.stateDir)
    (hkeys : ∀ request ∈ requests, config.Admits request.key) :
    (∀ earlier step later, config.storeSteps machine requests = earlier ++ step :: later →
      step.request.call = .load →
        step.reply = .loaded (.ok ((lastStored? step.request.key earlier).getD [])) ∧
        step.reply = ((StoreCall.load.on memoryStore : StateM (List Snapshot) StoreReply)
          (cellAfter step.request.key earlier)).1) ∧
    ∀ step ∈ config.storeSteps machine requests, ∀ key, config.Admits key →
      key ≠ step.request.key →
        (StoreStep.of config step.after ⟨key, .load, none⟩).reply =
          (StoreStep.of config step.before ⟨key, .load, none⟩).reply := by
  have hstart : Agrees config machine [] := ⟨fun _ ↦ none, hunused, fun _ ↦ rfl⟩
  refine ⟨?_, ?_⟩
  · intro earlier step later hsteps hload
    obtain ⟨hbefore, hmem, hstep⟩ := agrees_of_storeSteps hstart hvalid hkeys hsteps
    obtain ⟨⟨key, call, fault⟩, before, reply, after⟩ := step
    cases hload
    have hadmits : config.Admits key := hkeys _ hmem
    have hrun := run_load hbefore (hadmits.hasSeparator_eq_false hvalid) hadmits fault
    have hreply := congrArg StoreStep.reply hstep
    rw [StoreStep.of, hrun] at hreply
    refine ⟨hreply, ?_⟩
    rw [cellAfter_eq]
    exact hreply
  · intro step hmem key hadmits hne
    obtain ⟨earlier, later, hsteps⟩ := List.append_of_mem hmem
    obtain ⟨hbefore, hrequest, hstep⟩ := agrees_of_storeSteps hstart hvalid hkeys hsteps
    have hseparator := hadmits.hasSeparator_eq_false hvalid
    have hadmits' := hkeys _ hrequest
    have hafter := agrees_of_step hbefore (hadmits'.hasSeparator_eq_false hvalid) hadmits'
    rw [← hstep] at hafter
    rw [StoreStep.of, StoreStep.of, run_load hbefore hseparator hadmits,
      run_load hafter hseparator hadmits, lastStored?_append, StoreStep.stored?_of_ne hne.symm,
      Option.none_or]

/-! ### Two tables with the same draft -/

/-- A tree with one directory and nothing in it. -/
def treeWith (name : String) : FileTree :=
  (FileTree.empty []).insertNode [name] .dir

theorem linkFree_treeWith (name : String) : (treeWith name).LinkFree :=
  linkFree_empty.insertNode [name] nofun

/-- Two tables whose drafts have the same path, in a directory that is missing on a bare machine. -/
def sharedDraft : Config :=
  { Config.empty with
    tables := .ofList [(⟨""⟩, ⟨.ofLocation "/a", none, false, .empty⟩),
      (⟨".json"⟩, ⟨.ofLocation "/b", none, false, .empty⟩)]
    stateDir := "/state" }

/-- What is stored for the first table. -/
def sharedSnapshots : List Snapshot :=
  [.take 5 40 ["dt=1"]]

/-- The store for the second table leaves a part of its draft. -/
def sharedDraftRequests : List StoreRequest :=
  [⟨⟨""⟩, .store sharedSnapshots, none⟩,
    ⟨⟨".json"⟩, .store [], some (.write (some 1) (.other "No space left on device"))⟩,
    ⟨⟨""⟩, .load, none⟩]

theorem statePath_sharedDraft : sharedDraft.statePath ⟨""⟩ = "/state/.json" := by
  decide

theorem createDirsTo_state :
    (FileTree.empty []).createDirsTo "/state" = (treeWith "state", .ok ()) := by
  have hcreate : (FileTree.empty []).createDir "/state" = .ok (treeWith "state") := by
    rw [createDir, linkFree_empty.resolve_eq_stroll (by decide)]
    rfl
  rw [createDirsTo, createDirsWithin, if_neg (by decide), hcreate]

theorem hosts_state :
    (treeWith "state").Hosts "/state/.json" ["state", ".json"] ["state", ".json.json.tmp"] where
  free := linkFree_treeWith "state"
  file_ne_dir := by decide
  draft_ne_dir := by decide
  leads := by
    rw [(linkFree_treeWith "state").resolve_eq_stroll (by decide)]
    decide
  draft_leads := by
    rw [(linkFree_treeWith "state").resolve_eq_stroll (by decide)]
    decide
  parent parent hparent := by
    have hstate : parent? "/state/.json" = some "/state" := by decide
    obtain rfl := Option.some.inj (hparent.symm.trans hstate)
    right
    rw [isDirAt, (linkFree_treeWith "state").resolve_eq_stroll (by decide)]
    decide

/-- The first store creates the directory. -/
theorem run_store_sharedDraft :
    ∃ after, StoreRequest.run sharedDraft ⟨⟨""⟩, .store sharedSnapshots, none⟩ bareMachine =
      (.stored (.ok ()), after) := by
  let bytes := FileStore.encode sharedSnapshots
  let emitted := ((emit (.checkpointStateSize bytes.length) : MachineM Unit) bareMachine).2
  have hparent : (createParent "/state/.json" : ExceptT FileFault MachineM _).run emitted =
      (.ok (), { emitted with files := treeWith "state" }) :=
    run_createParent_of_tree (by decide) createDirsTo_state
  have hreplace := run_replaceFile_of_write hparent (hosts_state.write_draft (.bytes bytes))
    (change_of_ok (hosts_state.rename_draft (.bytes bytes)))
  exact ⟨_, run_store_of_reliable statePath_sharedDraft rfl hreplace⟩

theorem unused_state : bareMachine.files.Unused sharedDraft.stateDir := by
  have hway : bareMachine.files.Passes (bareMachine.files.setOut "/state")
      ⟨maxLinks, [], pathParts "/state"⟩ := .refl
  apply unused_of_nothing hway
  · decide
  · intro part below
    exact node?_empty (by simp)

theorem stores_are_cells_sharing_draft :
    draftPath (sharedDraft.statePath ⟨""⟩) = draftPath (sharedDraft.statePath ⟨".json"⟩) ∧
      ((sharedDraft.storeSteps bareMachine sharedDraftRequests).map StoreStep.reply).getLast? =
        some (.loaded (.ok sharedSnapshots)) := by
  have hvalid : sharedDraft.validate = .ok () := by decide +kernel
  have hkeys : ∀ request ∈ sharedDraftRequests, sharedDraft.Admits request.key := by
    decide +kernel
  obtain ⟨hloads, -⟩ := stores_are_cells hvalid unused_state hkeys
  let first := StoreStep.of sharedDraft bareMachine ⟨⟨""⟩, .store sharedSnapshots, none⟩
  let second := StoreStep.of sharedDraft first.after
    ⟨⟨".json"⟩, .store [], some (.write (some 1) (.other "No space left on device"))⟩
  let third := StoreStep.of sharedDraft second.after ⟨⟨""⟩, .load, none⟩
  have hfirst : first.stored? ⟨""⟩ = some sharedSnapshots := by
    obtain ⟨after, hstore⟩ := run_store_sharedDraft
    change StoreStep.stored? _ (StoreStep.of _ _ _) = _
    rw [StoreStep.of, hstore]
    rfl
  have hsecond : second.stored? ⟨""⟩ = none := StoreStep.stored?_of_ne (by decide)
  have hlast : lastStored? ⟨""⟩ [first, second] = some sharedSnapshots := by
    rw [lastStored?, List.filterMap_cons_some hfirst, List.filterMap_cons_none hsecond]
    rfl
  have hthird : third.reply = .loaded (.ok ((lastStored? ⟨""⟩ [first, second]).getD [])) :=
    (hloads [first, second] third [] rfl rfl).1
  rw [hlast] at hthird
  exact ⟨by decide +kernel, congrArg some hthird⟩

/-! ### A directory that is reached through the file -/

/-- The way to the directory of the snapshots leads over the place of their file, and up again. -/
def climbing : Config :=
  { Config.empty with
    tables := .ofList [(⟨"t"⟩, ⟨.ofLocation "/t", none, false, .empty⟩)]
    stateDir := "t.json/.." }

def climbingRequests : List StoreRequest :=
  [⟨⟨"t"⟩, .store [], none⟩, ⟨⟨"t"⟩, .load, none⟩]

theorem statePath_climbing : climbing.statePath ⟨"t"⟩ = "t.json/../t.json" := by
  decide

theorem createDirsTo_climbing :
    (FileTree.empty []).createDirsTo "t.json/.." = (treeWith "t.json", .ok ()) := by
  have hlength : "t.json/..".length = 8 + 1 := by decide
  have hmissing : (FileTree.empty []).createDir "t.json/.." = .error .notFound := by
    rw [createDir, linkFree_empty.resolve_eq_stroll (by decide)]
    rfl
  have hparent : parent? "t.json/.." = some "t.json" := by decide
  have hcreate : (FileTree.empty []).createDir "t.json" = .ok (treeWith "t.json") := by
    rw [createDir, linkFree_empty.resolve_eq_stroll (by decide)]
    rfl
  have habove : (FileTree.empty []).createDirsWithin "t.json" (8 + 1) =
      (treeWith "t.json", .ok ()) := by
    rw [createDirsWithin, if_neg (by decide), hcreate]
  have hthere : (treeWith "t.json").createDir "t.json/.." = .error .fileExists := by
    rw [createDir, (linkFree_treeWith "t.json").resolve_eq_stroll (by decide)]
    rfl
  have hdir : (treeWith "t.json").isDirAt "t.json/.." := by
    rw [isDirAt, (linkFree_treeWith "t.json").resolve_eq_stroll (by decide)]
    rfl
  rw [createDirsTo, hlength, createDirsWithin, if_neg (by decide), hmissing]
  simp only [hparent, habove, hthere, hdir, if_true]

/-- The draft is written, but it cannot be moved over the directory that is in the place of the
file. -/
theorem replaceFile_climbing {emitted : Machine} (hfiles : emitted.files = .empty [])
    (bytes : List UInt8) :
    ∃ after, (replaceFile "t.json/../t.json" bytes : ExceptT FileFault MachineM _).run emitted =
        (.error ⟨"t.json/../t.json", .isADirectory⟩, after) ∧
      after.files.read "t.json/../t.json" = .error .isADirectory := by
  let written := (treeWith "t.json").insertNode ["t.json.tmp"] (.file (.bytes bytes))
  have hfree : written.LinkFree := (linkFree_treeWith "t.json").insertNode _ nofun
  have hparent : (createParent "t.json/../t.json" : ExceptT FileFault MachineM _).run emitted =
      (.ok (), { emitted with files := treeWith "t.json" }) :=
    run_createParent_of_tree (by decide) (hfiles ▸ createDirsTo_climbing)
  have hdraft : (treeWith "t.json").resolve true (draftPath "t.json/../t.json") =
      .ok (.vacant ["t.json.tmp"] false) := by
    rw [(linkFree_treeWith "t.json").resolve_eq_stroll (by decide)]
    decide
  have hsource : written.resolve false (draftPath "t.json/../t.json") =
      .ok (.found ["t.json.tmp"] (.file (.bytes bytes))) := by
    rw [hfree.resolve_eq_stroll (by decide)]
    rfl
  have htarget (followLast : Bool) :
      written.resolve followLast "t.json/../t.json" = .ok (.found ["t.json"] .dir) := by
    rw [hfree.resolve_eq_stroll (by decide)]
    rfl
  have hmove : written.renameTo (draftPath "t.json/../t.json") "t.json/../t.json" =
      .error .isADirectory := by
    simp only [renameTo, hsource, htarget]
  have hread : written.read "t.json/../t.json" = .error .isADirectory := by
    simp only [FileTree.read, htarget]
  exact ⟨_, run_replaceFile_of_write hparent (write_of_fileRoute hdraft rfl)
    (change_of_error hmove), hread⟩

/-- The directory is missing, a store creates a directory in the place of the file and fails, and a
load fails afterwards. -/
theorem load_fails_after_climbing :
    climbing.validate = .ok () ∧
      bareMachine.files.resolve true climbing.stateDir = .error .notFound ∧
      (∀ request ∈ climbingRequests, climbing.Admits request.key) ∧
      (climbing.storeSteps bareMachine climbingRequests).map StoreStep.reply =
        [.stored (.error (.io "t.json/../t.json" .isADirectory)),
          .loaded (.error (.io "t.json/../t.json" .isADirectory))] := by
  have hmissing : bareMachine.files.resolve true climbing.stateDir = .error .notFound := by
    change (FileTree.empty []).resolve true "t.json/.." = _
    rw [linkFree_empty.resolve_eq_stroll (by decide +kernel)]
    rfl
  let bytes := FileStore.encode []
  let emitted := ((emit (.checkpointStateSize bytes.length) : MachineM Unit) bareMachine).2
  have hfiles : emitted.files = .empty [] := rfl
  obtain ⟨after, hreplace, hread⟩ := replaceFile_climbing hfiles bytes
  have hstore : StoreRequest.run climbing ⟨⟨"t"⟩, .store [], none⟩ bareMachine =
      (.stored (.error (.io "t.json/../t.json" .isADirectory)), after) :=
    run_store_of_reliable statePath_climbing rfl hreplace
  have hload : (StoreRequest.run climbing ⟨⟨"t"⟩, .load, none⟩ after).1 =
      .loaded (.error (.io "t.json/../t.json" .isADirectory)) := by
    rw [run_load_eq, statePath_climbing, hread]
    rfl
  refine ⟨by decide +kernel, hmissing, by decide +kernel, ?_⟩
  simp only [climbingRequests, Config.storeSteps, StoreStep.of, List.map_cons, List.map_nil, hstore,
    hload]

end CommitCoordinator
