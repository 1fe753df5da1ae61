import CommitCoordinator.Proofs.Failover.Restored

/-!
# Drains that are undone

Partitions that were drained and go back leave no trace of the drain, whatever was observed in
between, and a snapshot that is stored and taken up again leaves no trace either. What is pending
after any operations is therefore a list of names that could have been kept with all repeats, each
name at its first position.
-/

namespace CommitCoordinator

open Storage

/-! ## Stores that go on keeping their promises -/

/-- A store keeps its promises after whatever is asked of it, with or without success. -/
structure StoreLaws.Lasting {σ : Type} [MonadMetrics (StateM σ)]
    {snapshots : SnapshotStore (StateM σ)} (laws : StoreLaws σ snapshots) : Prop where
  sound_store {s : σ} (stored : List Snapshot) (h : laws.sound s) :
    laws.sound (snapshots.store stored s).2
  sound_load {s : σ} (h : laws.sound s) : laws.sound (snapshots.load s).2

theorem StoreLaws.lasting_ofMemory [MonadMetrics (StateM (List Snapshot))]
    (hemit : ∀ event s, ((emit event : StateM (List Snapshot) Unit) s).2 = s) :
    (StoreLaws.ofMemory hemit).Lasting where
  sound_store _ _ := trivial
  sound_load _ := trivial

theorem StoreLaws.lasting_ofFile {σ : Type} [MonadFileSystem (StateM σ)] [MonadMetrics (StateM σ)]
    {path : String} (laws : FileLaws σ path)
    (hemit : ∀ event s, laws.sound s → laws.sound ((emit event : StateM σ Unit) s).2 ∧
      laws.content ((emit event : StateM σ Unit) s).2 = laws.content s) :
    (StoreLaws.ofFile laws hemit).Lasting where
  sound_store {s} stored h := by
    change laws.sound ((FileStore.store path stored : StateM σ _) s).2
    obtain ⟨hemitted, -⟩ := hemit (.checkpointStateSize (FileStore.encode stored).length) s h
    obtain ⟨written, hwritten, ⟨hrun, -⟩ | ⟨fault, hrun⟩⟩ :=
      laws.run_replaceFile hemitted (FileStore.encode stored)
    · rw [FileStore.run_store hrun]
      exact hwritten
    · rw [FileStore.run_store hrun]
      exact hwritten
  sound_load {s} h := by
    change laws.sound ((FileStore.load path : StateM σ _) s).2
    obtain ⟨read, hread, -, hrun | ⟨cause, hrun⟩⟩ := laws.run_readIfPresent h
    · rw [FileStore.run_load hrun]
      exact hread
    · rw [FileStore.run_load hrun]
      exact hread

/-- The store in a file of a machine lasts. -/
theorem StoreLaws.lasting_ofMachine (path : String) : (StoreLaws.ofMachine path).Lasting :=
  lasting_ofFile _ _

namespace Pending

/-! ## Operations on pending partitions -/

/-- An operation on pending partitions. -/
inductive Move where
  | observe (partition : String)
  /-- All partitions are taken out, for the commit of a checkpoint or, without one, at the end of
  the input. -/
  | drain (checkpoint : Option Int64)
  | giveBack (partitions : List String)
  /-- A snapshot is stored for a checkpoint, and what the store then holds is taken up. -/
  | recover (checkpoint watermark : Int64)
deriving DecidableEq, Repr

/-- What an operation does to a list of names in which no repeat is erased. -/
def Move.effect (names : List String) : Move → List String
  | .observe partition => names ++ [partition]
  | .drain _ => []
  | .giveBack partitions => partitions ++ names
  | .recover _ _ => names

theorem Move.eraseDups_effect (names : List String) (move : Move) :
    (effect names.eraseDups move).eraseDups = (effect names move).eraseDups := by
  cases move with
  | observe partition => exact eraseDups_eraseDups_append names [partition]
  | drain checkpoint => rfl
  | giveBack partitions => exact eraseDups_append_eraseDups partitions names
  | recover checkpoint watermark =>
    simpa [effect] using eraseDups_eraseDups_append names []

section Programs

variable {m : Type → Type} [Monad m]

/-- Stores a snapshot and takes up what the store holds. A store that fails leaves the pending
partitions as they are. -/
def recover (store : SnapshotStore m) (checkpoint watermark : Int64) (pending : Pending) :
    m Pending := do
  match ← store.store [pending.snapshot checkpoint watermark] with
  | .error _ => return pending
  | .ok () =>
    match ← store.load with
    | .error _ => return pending
    | .ok stored => return restore stored

def perform (store : SnapshotStore m) (pending : Pending) : Move → m Pending
  | .observe partition => return pending.observe partition
  | .drain _ => return pending.drain.2
  | .giveBack partitions => return pending.giveBack partitions
  | .recover checkpoint watermark => pending.recover store checkpoint watermark

/-- Performs operations one after the other. -/
def performAll (store : SnapshotStore m) (pending : Pending) (moves : List Move) : m Pending :=
  moves.foldlM (perform store) pending

variable {store : SnapshotStore m} {pending : Pending}

theorem performAll_cons (move : Move) (moves : List Move) :
    performAll store pending (move :: moves) =
      perform store pending move >>= (performAll store · moves) :=
  List.foldlM_cons

variable [LawfulMonad m]

theorem performAll_append (moves others : List Move) :
    performAll store pending (moves ++ others) =
      performAll store pending moves >>= (performAll store · others) :=
  List.foldlM_append

theorem performAll_singleton (move : Move) :
    performAll store pending [move] = perform store pending move := by
  rw [performAll_cons]
  exact bind_pure _

theorem performAll_observe (partitions : List String) :
    performAll store pending (partitions.map .observe) = pure (pending.observeAll partitions) := by
  induction partitions generalizing pending with
  | nil => rfl
  | cons partition rest ih =>
    rw [List.map_cons, performAll_cons, perform, pure_bind, ih]
    rfl

end Programs

/-! ## Drained partitions that go back -/

theorem performAll_undone {m : Type → Type} [Monad m] [LawfulMonad m] (store : SnapshotStore m)
    (pending : Pending) (checkpoint : Option Int64) (observed : List String) :
    performAll store pending
        (.drain checkpoint :: observed.map .observe ++ [.giveBack pending.drain.1]) =
      performAll store pending (observed.map .observe) := by
  rw [List.cons_append, performAll_cons, perform, pure_bind, performAll_append,
    performAll_observe, pure_bind, performAll_singleton, perform, giveBack_observeAll_drain,
    performAll_observe]

/-! ## Snapshots that are taken up again -/

/-- Of what is pending, a snapshot that is taken up changes nothing. -/
theorem restore_snapshot (pending : Pending) (checkpoint watermark : Int64) :
    restore [pending.snapshot checkpoint watermark] =
      { pending with restoredWatermark := some watermark } :=
  congrArg (Pending.mk · (some watermark)) (pending.partitions_restore checkpoint watermark)

section Stores

variable {σ : Type} [MonadMetrics (StateM σ)] {snapshots : SnapshotStore (StateM σ)}
  {laws : StoreLaws σ snapshots} {s written last : σ}

/-- A store that takes the snapshot and answers gives the pending partitions back. -/
theorem recover_eq {pending : Pending} {checkpoint watermark : Int64} {loaded : List Snapshot}
    (hsound : laws.sound s)
    (hstore : snapshots.store [pending.snapshot checkpoint watermark] s = (.ok (), written))
    (hload : snapshots.load written = (.ok loaded, last)) :
    pending.recover snapshots checkpoint watermark s =
      ({ pending with restoredWatermark := some watermark }, last) := by
  obtain rfl := laws.of_load (laws.of_store hsound hstore) hload
  rw [recover, state_bind, hstore]
  dsimp only
  rw [state_bind, hload, ← restore_snapshot pending checkpoint watermark]
  rfl

/-- With or without success, a recovery leaves the same partitions pending. -/
theorem toList_recover (hlasting : laws.Lasting) (hsound : laws.sound s) (pending : Pending)
    (checkpoint watermark : Int64) :
    (pending.recover snapshots checkpoint watermark s).1.toList = pending.toList ∧
      laws.sound (pending.recover snapshots checkpoint watermark s).2 := by
  have hkept := hlasting.sound_store [pending.snapshot checkpoint watermark] hsound
  cases hstore : snapshots.store [pending.snapshot checkpoint watermark] s with
  | mk result written =>
    rw [hstore] at hkept
    cases result with
    | error cause =>
      rw [recover, state_bind, hstore]
      exact ⟨rfl, hkept⟩
    | ok =>
      have hread := hlasting.sound_load hkept
      cases hload : snapshots.load written with
      | mk result last =>
        rw [hload] at hread
        cases result with
        | error cause =>
          rw [recover, state_bind, hstore]
          dsimp only
          rw [state_bind, hload]
          exact ⟨rfl, hread⟩
        | ok loaded =>
          rw [recover_eq hsound hstore hload]
          exact ⟨rfl, hread⟩

/-! ## What is pending after any operations -/

/-- A single operation has its effect, and no repeat is left. -/
theorem toList_perform (hlasting : laws.Lasting) (hsound : laws.sound s) (pending : Pending)
    (move : Move) :
    (perform snapshots pending move s).1.toList = (move.effect pending.toList).eraseDups ∧
      laws.sound (perform snapshots pending move s).2 := by
  cases move with
  | observe partition => exact ⟨pending.toList_observeAll [partition], hsound⟩
  | drain checkpoint => exact ⟨rfl, hsound⟩
  | giveBack partitions => exact ⟨pending.toList_giveBack partitions, hsound⟩
  | recover checkpoint watermark =>
    obtain ⟨hlist, hkept⟩ := toList_recover hlasting hsound pending checkpoint watermark
    exact ⟨hlist.trans (eraseDups_eq_self pending.nodup_toList).symm, hkept⟩

/-- Repeats may be erased after every operation or only at the end. -/
theorem toList_performAll (hlasting : laws.Lasting) (hsound : laws.sound s) {pending : Pending}
    {names : List String} (hnames : pending.toList = names.eraseDups) (moves : List Move) :
    (performAll snapshots pending moves s).1.toList =
        (moves.foldl Move.effect names).eraseDups ∧
      laws.sound (performAll snapshots pending moves s).2 := by
  -- on the last operation: what is pending before it has lost its repeats already
  induction moves using List.reverseRecOn with
  | nil => exact ⟨hnames, hsound⟩
  | append_singleton moves move ih =>
    obtain ⟨hlist, hkept⟩ := ih
    obtain ⟨hstep, hafter⟩ :=
      toList_perform hlasting hkept (performAll snapshots pending moves s).1 move
    rw [performAll_append, state_bind, performAll_singleton, List.foldl_concat]
    refine ⟨?_, hafter⟩
    calc
      (perform snapshots (performAll snapshots pending moves s).1 move
          (performAll snapshots pending moves s).2).1.toList
          = (move.effect (performAll snapshots pending moves s).1.toList).eraseDups := hstep
      _ = (move.effect (moves.foldl Move.effect names).eraseDups).eraseDups := by
        rw [hlist]
      _ = (move.effect (moves.foldl Move.effect names)).eraseDups :=
        Move.eraseDups_effect _ move

end Stores

/-- Whatever operations are performed on partitions that were taken up from any stored snapshots,
with repeats or not, those pending afterwards are the names that came in since the last drain, the
returned ones in front, each at its first position. Partitions that are drained then, for a
checkpoint or at the end of the input, and given back after others were observed are in the places
that they would have without the drain. A snapshot that is stored then and taken up again changes
nothing but the restored watermark. -/
theorem returned_drains_leave_no_trace {σ : Type} [MonadMetrics (StateM σ)]
    {snapshots : SnapshotStore (StateM σ)} {laws : StoreLaws σ snapshots}
    (hlasting : laws.Lasting) {s after : σ} (hsound : laws.sound s) (stored : List Snapshot)
    (moves : List Move) {pending : Pending}
    (hrun : performAll snapshots (restore stored) moves s = (pending, after)) :
    (restore stored).toList = (storedNames stored).eraseDups ∧
      pending.toList = (moves.foldl Move.effect (storedNames stored)).eraseDups ∧
      pending.toList.Nodup ∧
      (∀ (checkpoint : Option Int64) (observed : List String),
        performAll snapshots pending
            (.drain checkpoint :: observed.map .observe ++ [.giveBack pending.drain.1]) after =
          performAll snapshots pending (observed.map .observe) after) ∧
      ∀ checkpoint watermark,
        (pending.recover snapshots checkpoint watermark after).1.toList = pending.toList ∧
        ∀ written loaded last,
          snapshots.store [pending.snapshot checkpoint watermark] after = (.ok (), written) →
          snapshots.load written = (.ok loaded, last) →
            pending.recover snapshots checkpoint watermark after =
              ({ pending with restoredWatermark := some watermark }, last) := by
  obtain ⟨hlist, hkept⟩ := toList_performAll hlasting hsound (toList_restore stored) moves
  rw [hrun] at hlist hkept
  refine ⟨toList_restore stored, hlist, pending.nodup_toList, ?_, ?_⟩
  · intro checkpoint observed
    rw [performAll_undone]
  · intro checkpoint watermark
    exact ⟨(toList_recover hlasting hkept pending checkpoint watermark).1,
      fun written loaded last hstore hload ↦ recover_eq hkept hstore hload⟩

/-- Snapshots in which a partition is repeated. -/
def repeatedSnapshots : List Snapshot :=
  [⟨1, 4, 0, ["b", "a", "b"]⟩]

/-- Partitions go back, one of them twice and one that is pending. -/
def overlappingMoves : List Move :=
  [.observe "c", .giveBack ["d", "a", "d"]]

def overlapped : Pending :=
  ⟨.ofList ["d", "a", "b", "c"], some 0⟩

theorem performAll_overlappingMoves (store : SnapshotStore MachineM) (machine : Machine) :
    performAll store (restore repeatedSnapshots) overlappingMoves machine =
      (overlapped, machine) := by
  have hpending : ((restore repeatedSnapshots).observe "c").giveBack ["d", "a", "d"] =
      overlapped := by decide +kernel
  rw [← hpending]
  rfl

theorem returned_drains_leave_no_trace_in_file :
    ∃ pending after,
      (performAll (fileStore "/state.json") (restore repeatedSnapshots)
          (overlappingMoves ++ [.recover 6 40]) : MachineM _) bareMachine = (pending, after) ∧
        pending.restoredWatermark = some 40 ∧ pending.toList = ["d", "a", "b", "c"] ∧
        ((performAll (fileStore "/state.json") pending
          [.drain none, .observe "e", .observe "b", .giveBack pending.drain.1] : MachineM _)
            after).1.toList = ["d", "a", "b", "c", "e"] := by
  let store : SnapshotStore MachineM := fileStore "/state.json"
  have hosts : bareMachine.files.Hosts "/state.json" ["state.json"] ["state.json.tmp"] :=
    FileTree.hosts_empty (by decide +kernel) (by decide +kernel) (by decide +kernel)
  obtain ⟨written, hstore⟩ : ∃ written,
      store.store [overlapped.snapshot 6 40] bareMachine = (.ok (), written) :=
    ⟨_, run_store_of_hosts hosts _⟩
  have hsound : (StoreLaws.ofMachine "/state.json").sound bareMachine := hosts.free
  have hload : store.load written = (.ok [overlapped.snapshot 6 40], written) :=
    run_load_of_holds ((StoreLaws.ofMachine "/state.json").of_store hsound hstore)
  have hrun : performAll store (restore repeatedSnapshots)
      (overlappingMoves ++ [.recover 6 40]) bareMachine =
        ({ overlapped with restoredWatermark := some 40 }, written) := by
    rw [performAll_append, state_bind, performAll_overlappingMoves, performAll_singleton]
    exact recover_eq hsound hstore hload
  obtain ⟨-, hlist, -, hundone, -⟩ := returned_drains_leave_no_trace
    (StoreLaws.lasting_ofMachine "/state.json") hsound repeatedSnapshots _ hrun
  have hsame := hundone none ["e", "b"]
  rw [performAll_observe] at hsame
  have hobserved : (overlapped.observeAll ["e", "b"]).toList = ["d", "a", "b", "c", "e"] := by
    decide +kernel
  exact ⟨_, written, hrun, rfl, hlist.trans (by decide +kernel),
    (congrArg (·.1.toList) hsame).trans hobserved⟩

end Pending

end CommitCoordinator
