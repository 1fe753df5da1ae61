import CommitCoordinator.Proofs.Dialogue.Basic

/-!
# Coordinators that take in events

A coordinator takes in reports, watermarks and checkpoints. Operators deliver just these events
and remember the summaries. In every lawful monad a coordinator does what its dialogue does when
it is interpreted there.
-/

namespace CommitCoordinator

section Handle

variable {m : Type → Type} [Monad m] [MonadMetrics m] [MonadFresh m] [MonadClock m]

/-- Takes in an event. Only a report can have a summary. -/
def Coordinator.handle (services : Services m) (store : SnapshotStore m) (event : HostEvent)
    (coordinator : Coordinator) : m (Except CommitError (Option CommitSummary) × Coordinator) :=
  match event with
  | .record report => coordinator.process services report
  | .watermark timestamp => return (.ok none, coordinator.observeWatermark timestamp)
  | .checkpoint id => do
    return ((← coordinator.snapshot store id).map fun _ ↦ none, coordinator)

/-- The operator after its coordinator has taken in an event. -/
def Operator.after (operator : Operator)
    (outcome : Except CommitError (Option CommitSummary) × Coordinator) : Operator :=
  ({ operator with coordinator := outcome.2 }).remember outcome.1.toOption.join

@[simp] theorem Operator.coordinator_after (operator : Operator)
    (outcome : Except CommitError (Option CommitSummary) × Coordinator) :
    (operator.after outcome).coordinator = outcome.2 := by
  obtain ⟨result, coordinator⟩ := outcome
  rcases result with _ | _ | _ <;> rfl

theorem Operator.deliver_eq_handle [LawfulMonad m] (services : Services m)
    (store : SnapshotStore m) (event : HostEvent) (operator : Operator) :
    operator.deliver services store event =
      (fun outcome ↦ (outcome.1.map fun _ ↦ (), operator.after outcome)) <$>
        operator.coordinator.handle services store event := by
  cases event with
  | record report =>
    rw [map_eq_pure_bind]
    apply bind_congr
    intro outcome
    rcases outcome with ⟨_ | summary, coordinator⟩ <;> rfl
  | watermark timestamp =>
    simp only [deliver, Coordinator.handle, map_pure]
    rfl
  | checkpoint id =>
    simp only [deliver, Coordinator.handle, map_eq_pure_bind, bind_assoc, pure_bind]
    apply bind_congr
    intro result
    cases result <;> rfl

end Handle

namespace Dialogue

section Interpret

variable {m : Type → Type} [Monad m] [MonadMetrics m] [MonadFresh m] [MonadClock m]

/-- The answers of services, a store and a monad. -/
def answering (services : Services m) (store : SnapshotStore m) : (call : Call) → m call.Answer
  | .lookup name => services.catalog.lookup name
  | .append request keep mode => services.catalog.append request keep mode
  | .insert manifests => services.catalog.insert manifests
  | .list directory => services.listing directory
  | .load => store.load
  | .store snapshots => store.store snapshots
  | .emit event => emit event
  | .freshId => freshId
  | .currentTime => currentTime

variable (answers : Services m) (snapshots : SnapshotStore m)

theorem interpret_emitAll (events : List MetricEvent) :
    interpret (answering answers snapshots) (Coordinator.emitAll events) =
      Coordinator.emitAll events := by
  induction events with
  | nil => rfl
  | cons event rest ih =>
    rw [emitAll_cons, interpret_ask, ih]
    rfl

theorem interpret_snapshot (checkpoint : Int64) (coordinator : Coordinator) :
    interpret (answering answers snapshots) (coordinator.snapshot store checkpoint) =
      coordinator.snapshot snapshots checkpoint := by
  unfold Coordinator.snapshot
  split
  · rfl
  · apply bind_congr
    intro stored
    cases stored <;> rfl

theorem interpret_send (payload : Payload) :
    interpret (answering answers snapshots) (Attempt.send services.catalog payload) =
      Attempt.send answers.catalog payload := by
  apply bind_congr
  intro accepted
  rcases accepted with cause | _ | _
  · rfl
  · rfl
  · apply bind_congr
    intro inserted
    cases inserted <;> rfl

variable [LawfulMonad m]

theorem interpret_launch (restored : Bool) (coordinator : Coordinator) :
    interpret (answering answers snapshots) (coordinator.launch store restored) =
      coordinator.launch snapshots restored := by
  have hload : interpret (answering answers snapshots)
      (if restored then store.load else pure (.ok [])) =
        if restored then snapshots.load else pure (.ok []) := by
    cases restored with
    | false => rfl
    | true => exact bind_pure snapshots.load
  unfold Coordinator.launch
  split
  · rfl
  · rw [interpret_bind, hload]
    apply bind_congr
    intro loaded
    cases loaded <;> rfl

theorem interpret_scanAll (options : SinkOptions) (fileMark : String) (partitions : List String) :
    interpret (answering answers snapshots)
        (Attempt.scanAll services.listing options fileMark partitions) =
      Attempt.scanAll answers.listing options fileMark partitions := by
  induction partitions with
  | nil => rfl
  | cons partition rest ih =>
    simp only [Attempt.scanAll, scan, services_listing, ask_bind, bind_assoc, pure_bind,
      interpret_ask]
    apply bind_congr
    intro listed
    cases listed with
    | error cause => rfl
    | ok entries =>
      apply bind_congr
      intro snapshot
      refine (interpret_bind _ (Attempt.scanAll services.listing options fileMark rest) _).trans ?_
      rw [ih]
      rfl

theorem interpret_prepare (options : SinkOptions) (report : Report) (partitions : List String) :
    interpret (answering answers snapshots) (Attempt.prepare services options report partitions) =
      Attempt.prepare answers options report partitions := by
  apply bind_congr
  intro found
  cases found with
  | error cause => rfl
  | ok table =>
    refine (interpret_bind _ (Attempt.scanAll services.listing options report.fileMark partitions)
      _).trans ?_
    rw [interpret_scanAll]
    apply bind_congr
    intro scanned
    cases scanned <;> rfl

theorem interpret_run (options : SinkOptions) (report : Report) (partitions : List String) :
    interpret (answering answers snapshots) (Attempt.run services options report partitions) =
      Attempt.run answers options report partitions := by
  simp only [Attempt.run, interpret_bind, interpret_prepare]
  apply bind_congr
  intro prepared
  cases prepared with
  | error attempt => rfl
  | ok payload => exact interpret_send answers snapshots payload

theorem interpret_commit (report : Report) (coordinator : Coordinator) :
    interpret (answering answers snapshots) (coordinator.commit services report) =
      coordinator.commit answers report := by
  simp only [Coordinator.commit]
  split
  · rfl
  · split
    · rfl
    · simp only [interpret_bind, interpret_run, interpret_emitAll, interpret_pure]

theorem interpret_process (report : Report) (coordinator : Coordinator) :
    interpret (answering answers snapshots) (coordinator.process services report) =
      coordinator.process answers report := by
  unfold Coordinator.process
  split
  · rfl
  · rfl
  · rfl
  · rename_i received _
    exact bind_congr fun _ ↦ interpret_commit answers snapshots report received

/-- A coordinator does in a monad what its dialogue does when it is interpreted there. -/
theorem interpret_handle (event : HostEvent) (coordinator : Coordinator) :
    interpret (answering answers snapshots) (coordinator.handle services store event) =
      coordinator.handle answers snapshots event := by
  cases event with
  | record report => exact interpret_process answers snapshots report coordinator
  | watermark timestamp => rfl
  | checkpoint id =>
    simp only [Coordinator.handle, interpret_bind, interpret_snapshot, interpret_pure]

end Interpret

end Dialogue

end CommitCoordinator
