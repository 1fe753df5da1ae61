import CommitCoordinator.Proofs.Catalog.Encoding
import CommitCoordinator.Proofs.Coordinator.Twins
import CommitCoordinator.Proofs.Storage.Hosting

/-!
# Coordinators that are restored from their own snapshot

A coordinator that waits for no checkpoint and has just stored a snapshot can be replaced by a new
one that takes the snapshot up. The two cannot be told apart by any events afterwards, except by
the watermark in stored snapshots before the next watermark arrives.
-/

namespace CommitCoordinator

open Storage Dialogue

/-! ## Stores that keep what they take -/

/-- The promises of a store: what it took without an error is what it loads later, whatever metric
events are emitted in between. -/
structure StoreLaws (σ : Type) [MonadMetrics (StateM σ)]
    (snapshots : SnapshotStore (StateM σ)) where
  /-- The states in which the promises are kept. -/
  sound : σ → Prop
  /-- Whether a list of snapshots is the one stored last. -/
  holds : List Snapshot → σ → Prop
  of_store {stored : List Snapshot} {s after : σ} (h : sound s)
    (run : snapshots.store stored s = (.ok (), after)) : holds stored after
  of_emit {stored : List Snapshot} {s : σ} (event : MetricEvent) (h : holds stored s) :
    holds stored ((emit event : StateM σ Unit) s).2
  of_load {stored loaded : List Snapshot} {s after : σ} (h : holds stored s)
    (run : snapshots.load s = (.ok loaded, after)) : loaded = stored

/-- The store in the state itself, if metric events leave it alone. -/
def StoreLaws.ofMemory [MonadMetrics (StateM (List Snapshot))]
    (hemit : ∀ event s, ((emit event : StateM (List Snapshot) Unit) s).2 = s) :
    StoreLaws (List Snapshot) memoryStore where
  sound _ := True
  holds stored s := s = stored
  of_store _ run := by
    cases run
    rfl
  of_emit event h := by
    rw [hemit, h]
  of_load h run := by
    cases run
    exact h

/-- What the store in a file loads, from what reading the file comes to. -/
def FileStore.loaded (path : String) :
    Except FileFault (Option (List UInt8)) → Except StateError (List Snapshot)
  | .ok (some content) => decode path content
  | .ok none => .ok []
  | .error fault => .error (ofFault fault)

theorem FileStore.run_load {σ : Type} [MonadFileSystem (StateM σ)] {path : String} {s after : σ}
    {result : Except FileFault (Option (List UInt8))}
    (h : (readIfPresent path : ExceptT FileFault (StateM σ) _).run s = (result, after)) :
    (load path : StateM σ _) s = (loaded path result, after) := by
  have hread := run_adapt h ofFault
  unfold load
  cases result with
  | error fault => rw [run_bind_error hread, loaded]
  | ok content =>
    rw [run_bind_ok hread]
    cases content <;> rfl

theorem FileStore.run_store {σ : Type} [MonadFileSystem (StateM σ)] [MonadMetrics (StateM σ)]
    {path : String} {snapshots : List Snapshot} {s after : σ} {result : Except FileFault Unit}
    (h : (replaceFile path (encode snapshots) : ExceptT FileFault (StateM σ) _).run
      ((emit (.checkpointStateSize (encode snapshots).length) : StateM σ Unit) s).2 =
        (result, after)) :
    (store path snapshots : StateM σ _) s = (result.mapError ofFault, after) := by
  unfold store
  rw [state_bind]
  exact run_adapt h ofFault

/-- The store in a file, if metric events leave the file alone. -/
def StoreLaws.ofFile {σ : Type} [MonadFileSystem (StateM σ)] [MonadMetrics (StateM σ)]
    {path : String} (laws : FileLaws σ path)
    (hemit : ∀ event s, laws.sound s → laws.sound ((emit event : StateM σ Unit) s).2 ∧
      laws.content ((emit event : StateM σ Unit) s).2 = laws.content s) :
    StoreLaws σ (fileStore path) where
  sound := laws.sound
  holds stored s := laws.sound s ∧ laws.content s = some (FileStore.encode stored)
  of_store {stored s after} h run := by
    change (do
      emit (.checkpointStateSize (FileStore.encode stored).length)
      ((replaceFile path (FileStore.encode stored)).adapt FileStore.ofFault).run :
        StateM σ (Except StateError Unit)) s = _ at run
    rw [state_bind] at run
    obtain ⟨hemitted, -⟩ := hemit (.checkpointStateSize (FileStore.encode stored).length) s h
    obtain ⟨written, hwritten, ⟨hreplace, hcontent⟩ | ⟨fault, hreplace⟩⟩ :=
      laws.run_replaceFile hemitted (FileStore.encode stored)
    · cases (run_adapt hreplace FileStore.ofFault).symm.trans run
      exact ⟨hwritten, hcontent⟩
    · cases (run_adapt hreplace FileStore.ofFault).symm.trans run
  of_emit {stored s} event h := by
    obtain ⟨hsound, hcontent⟩ := hemit event s h.1
    exact ⟨hsound, hcontent.trans h.2⟩
  of_load {stored loaded s after} h run := by
    obtain ⟨read, -, -, hread | ⟨cause, hread⟩⟩ := laws.run_readIfPresent h.1
    · rw [h.2] at hread
      have hload := (FileStore.run_load hread).symm.trans run
      rw [FileStore.loaded, FileStore.decode_encode] at hload
      cases hload
      rfl
    · cases (FileStore.run_load hread).symm.trans run

/-! ## Taking up what was stored -/

section Restore

variable {σ : Type} [MonadMetrics (StateM σ)] {snapshots : SnapshotStore (StateM σ)}
  (laws : StoreLaws σ snapshots) {s after : σ} {coordinator restored : Coordinator}

/-- A checkpoint leaves the pending partitions in the store. -/
theorem holds_of_snapshot {checkpoint : Int64} (hsound : laws.sound s)
    (hrun : (coordinator.snapshot snapshots checkpoint : StateM σ _) s = (.ok (), after)) :
    ∃ pending, coordinator.pending = some pending ∧
      laws.holds [pending.snapshot checkpoint coordinator.watermark] after := by
  cases hpending : coordinator.pending with
  | none =>
    rw [Coordinator.snapshot, hpending] at hrun
    cases hrun
  | some pending =>
    refine ⟨pending, rfl, ?_⟩
    rw [Coordinator.snapshot, hpending] at hrun
    dsimp only at hrun
    rw [state_bind] at hrun
    cases hstore : snapshots.store [pending.snapshot checkpoint coordinator.watermark] s with
    | mk result stored =>
      rw [hstore] at hrun
      cases result with
      | error cause => cases hrun
      | ok =>
        have hheld := laws.of_emit (.pendingPartitions coordinator.label pending.size)
          (laws.of_store hsound hstore)
        cases hrun
        exact hheld

/-- A coordinator that comes back takes up what the store holds. -/
theorem eq_start_of_launch {stored : List Snapshot} (hheld : laws.holds stored s)
    (hrun : (coordinator.launch snapshots true : StateM σ _) s = ((.ok (), restored), after)) :
    restored = coordinator.start (Pending.restore stored) := by
  unfold Coordinator.launch at hrun
  split at hrun
  · cases hrun
  · rw [if_pos rfl, state_bind] at hrun
    cases hload : snapshots.load s with
    | mk result loaded =>
      rw [hload] at hrun
      cases result with
      | error cause => cases hrun
      | ok snapshots =>
        obtain rfl := laws.of_load hheld hload
        cases hrun
        rfl

end Restore

/-- What is taken up from a snapshot is what was pending, in the same order. -/
theorem Pending.partitions_restore (pending : Pending) (checkpoint watermark : Int64) :
    (restore [pending.snapshot checkpoint watermark]).partitions = pending.partitions := by
  apply SequencedSet.eq_of_elements
  change (restore [pending.snapshot checkpoint watermark]).toList = pending.toList
  rw [toList_restore]
  exact eraseDups_eq_self pending.nodup_toList

/-- A coordinator and the one that took up its snapshot are twins. -/
theorem Coordinator.twin_restored {coordinator : Coordinator} {pending : Pending} {total : UInt32}
    (hpending : coordinator.pending = some pending)
    (hidle : ∀ quorum, coordinator.quorum = some quorum →
      quorum.total = total ∧ quorum.openCount = 0) (checkpoint watermark : Int64) :
    coordinator.Twin false total ((new coordinator.label coordinator.options).start
      (Pending.restore [pending.snapshot checkpoint watermark])) where
  label := rfl
  options := rfl
  pending := ⟨pending, _, hpending, rfl, (pending.partitions_restore checkpoint watermark).symm⟩
  quorum := by
    cases hquorum : coordinator.quorum with
    | none => exact .inl rfl
    | some quorum => exact .inr ⟨rfl, quorum, rfl, hidle quorum hquorum⟩
  watermark := nofun

/-- A coordinator without open checkpoints that has just stored a snapshot, and a new one that is
restored from the store, cannot be told apart: whatever events with reports of the known number of
writers come, in surroundings that answer both alike, they ask alike, give the same results up to
the identifiers and times they draw, and have the same partitions pending after every event. -/
theorem restored_indistinguishable {σ : Type} [MonadMetrics (StateM σ)]
    {snapshots : SnapshotStore (StateM σ)} (laws : StoreLaws σ snapshots)
    {coordinator restored : Coordinator} {total : UInt32} {checkpoint : Int64} {s after later : σ}
    (hidle : ∀ quorum, coordinator.quorum = some quorum →
      quorum.total = total ∧ quorum.openCount = 0)
    (hsound : laws.sound s)
    (hsnapshot : (coordinator.snapshot snapshots checkpoint : StateM σ _) s = (.ok (), after))
    (hrestore : ((Coordinator.new coordinator.label coordinator.options).launch snapshots true :
      StateM σ _) after = ((.ok (), restored), later))
    (R : Uuid → Uuid → Prop) {steps others : List Step} {current current' : Coordinator}
    (hrun : Run coordinator steps current) (hrun' : Run restored others current')
    (hevents : steps.map Step.event = others.map Step.event)
    (hcount : ∀ step ∈ steps, ∀ report, step.event = .record report → report.taskCount = total)
    (hanswers : Concordant R (steps.flatMap Step.transcript) (others.flatMap Step.transcript)) :
    Indistinguishable R false steps others := by
  obtain ⟨pending, hpending, hheld⟩ := holds_of_snapshot laws hsound hsnapshot
  obtain rfl := eq_start_of_launch laws hheld hrestore
  have htwin := Coordinator.twin_restored hpending hidle checkpoint coordinator.watermark
  exact htwin.indistinguishable hrun hrun' hevents hcount hanswers

/-! ## The store in a file of a machine -/

/-- The store in a file of a machine. -/
def StoreLaws.ofMachine (path : String) : StoreLaws Machine (fileStore path) :=
  .ofFile (.ofMachine path) fun _ _ hsound ↦ ⟨hsound, rfl⟩

section Hosts

variable {machine : Machine} {path : String} {file draft : Route}

/-- Snapshots are stored in a hosted file without a failure. -/
theorem run_store_of_hosts (h : machine.files.Hosts path file draft) (stored : List Snapshot) :
    (FileStore.store path stored : MachineM _) machine =
      (.ok (), { machine with
        files := machine.files.replaced file draft (.bytes (FileStore.encode stored))
        ledger := machine.ledger.record
          (.checkpointStateSize (FileStore.encode stored).length) }) := by
  let emitted : Machine :=
    { machine with
      ledger := machine.ledger.record (.checkpointStateSize (FileStore.encode stored).length) }
  have hemitted : emitted.files.Hosts path file draft := h
  exact FileStore.run_store (hemitted.run_replaceFile (FileStore.encode stored))

/-- Snapshots that a file holds are loaded without a failure. -/
theorem run_load_of_holds {stored : List Snapshot}
    (h : (StoreLaws.ofMachine path).holds stored machine) :
    (FileStore.load path : MachineM _) machine = (.ok stored, machine) := by
  have hread : machine.files.read path = .ok (FileStore.encode stored) := toOption_eq_some h.2
  have hrun : (readFile path : MachineM _) machine = (.ok (FileStore.encode stored), machine) := by
    rw [← hread]
    rfl
  rw [FileStore.run_load (run_readIfPresent_eq hrun), ifPresent, FileStore.loaded,
    FileStore.decode_encode]

end Hosts

/-- A coordinator that waits for no checkpoint and has a partition pending. -/
def idleCoordinator : Coordinator :=
  ⟨"orders", .ofLocation "/orders", some ⟨.ofList ["a"], none⟩, some ⟨1, by decide, .empty⟩, 40⟩

/-- The coordinator that takes up what the idle one stored for checkpoint 5. -/
def restoredCoordinator : Coordinator :=
  (Coordinator.new "orders" (.ofLocation "/orders")).start
    (.restore [(⟨.ofList ["a"], none⟩ : Pending).snapshot 5 40])

/-- The only writer reports checkpoint 6; nothing fails, and a number stands for the snapshots that
are drawn. -/
def soleStep (before : Coordinator) (snapshot : Nat) : Step :=
  .of (Call.granted ⟨"t1", "orders", "/orders", ""⟩ [] (.ofNumber snapshot)) before
    (.record ⟨6, 0, 1, "orders", "", .ofList ["b"]⟩)

theorem run_soleStep (before : Coordinator) (snapshot : Nat) :
    Run before [soleStep before snapshot] (soleStep before snapshot).after :=
  .snoc .nil (Step.valid_of _ before _)

theorem concordant_soleStep (before other : Coordinator) (snapshot snapshot' : Nat) :
    Concordant (fun id id' ↦ id = .ofNumber snapshot ∧ id' = .ofNumber snapshot')
      ([soleStep before snapshot].flatMap Step.transcript)
      ([soleStep other snapshot'].flatMap Step.transcript) := by
  have hmem (before : Coordinator) (snapshot : Nat) :
      ∀ exchange ∈ [soleStep before snapshot].flatMap Step.transcript, exchange.answer =
        Call.granted ⟨"t1", "orders", "/orders", ""⟩ [] (.ofNumber snapshot) exchange.call := by
    intro exchange hexchange
    rw [List.flatMap_cons, List.flatMap_nil, List.append_nil] at hexchange
    exact Step.answer_of_mem hexchange
  exact concordant_of_answers (fun _ _ h ↦ h.granted ⟨rfl, rfl⟩ _ _) (hmem before snapshot)
    (hmem other snapshot')

theorem restored_indistinguishable_in_file :
    ∃ after later : Machine,
      (idleCoordinator.snapshot (fileStore "/state.json") 5 : MachineM _) bareMachine =
          (.ok (), after) ∧
        ((Coordinator.new "orders" (.ofLocation "/orders")).launch (fileStore "/state.json") true :
          MachineM _) after = ((.ok (), restoredCoordinator), later) ∧
        Indistinguishable (fun id other ↦ id = .ofNumber 0 ∧ other = .ofNumber 9) false
          [soleStep idleCoordinator 0] [soleStep restoredCoordinator 9] := by
  have hosts : bareMachine.files.Hosts "/state.json" ["state.json"] ["state.json.tmp"] :=
    FileTree.hosts_empty (by decide +kernel) (by decide +kernel) (by decide +kernel)
  let laws := StoreLaws.ofMachine "/state.json"
  let stored := [(⟨.ofList ["a"], none⟩ : Pending).snapshot 5 40]
  obtain ⟨written, hstore⟩ : ∃ written,
      (FileStore.store "/state.json" stored : MachineM _) bareMachine = (.ok (), written) :=
    ⟨_, run_store_of_hosts hosts stored⟩
  let after := (emit (.pendingPartitions "orders" 1) : MachineM Unit) written |>.2
  have hsnapshot : (idleCoordinator.snapshot (fileStore "/state.json") 5 : MachineM _) bareMachine =
      (.ok (), after) := by
    change (FileStore.store "/state.json" stored >>= _ : MachineM _) bareMachine = _
    rw [state_bind, hstore]
    rfl
  have hload : (FileStore.load "/state.json" : MachineM _) after = (.ok stored, after) :=
    run_load_of_holds (laws.of_emit _ (laws.of_store hosts.free hstore))
  let later := (emit (.pendingPartitions "orders" 1) : MachineM Unit) after |>.2
  have hrestore : ((Coordinator.new "orders" (.ofLocation "/orders")).launch
      (fileStore "/state.json") true : MachineM _) after =
        ((.ok (), restoredCoordinator), later) := by
    change (FileStore.load "/state.json" >>= _ : MachineM _) after = _
    rw [state_bind, hload]
    rfl
  refine ⟨after, later, hsnapshot, hrestore, ?_⟩
  apply restored_indistinguishable laws _ hosts.free hsnapshot hrestore _ (run_soleStep _ 0)
    (run_soleStep _ 9) rfl _ (concordant_soleStep _ _ 0 9)
  · exact 1
  · intro quorum hquorum
    cases hquorum
    exact ⟨rfl, rfl⟩
  · intro step hstep report hevent
    cases List.mem_singleton.1 hstep
    cases hevent
    rfl

end CommitCoordinator
