import CommitCoordinator.Catalog.File
import CommitCoordinator.Machine
import CommitCoordinator.Proofs.Metrics.Accounting
import CommitCoordinator.Proofs.Storage.Replacing
import CommitCoordinator.Storage.Listing

/-!
# The ledger of a machine

On a machine nothing but events reaches the ledger. Operations on files emit none, and what listings
and stores emit goes under other labels than those of tables. So a coordinator that works with files
on a machine keeps the books of its table, whatever the files hold.
-/

namespace CommitCoordinator

open Storage Dialogue

/-! ## Programs that emit nothing -/

/-- Whether a program leaves the ledger as it is. -/
def Silent {α : Type} (x : MachineM α) : Prop :=
  ∀ machine, (x machine).2.ledger = machine.ledger

section Silent

variable {α β ε ε' : Type}

theorem silent_pure (value : α) : Silent (pure value) :=
  fun _ ↦ rfl

theorem Silent.bind {x : MachineM α} {f : α → MachineM β} (hx : Silent x)
    (hf : ∀ value, Silent (f value)) : Silent (x >>= f) :=
  fun machine ↦ (hf (x machine).1 (x machine).2).trans (hx machine)

/-- A step that fails ends a program, and else the next one follows. -/
theorem Silent.followed {x : ExceptT ε MachineM α} {f : α → ExceptT ε MachineM β}
    (hx : Silent x.run) (hf : ∀ value, Silent (f value).run) : Silent (x >>= f).run := by
  rw [ExceptT.run_bind]
  refine Silent.bind hx fun result ↦ ?_
  cases result with
  | ok value => exact hf value
  | error e => exact silent_pure _

theorem Silent.adapt {x : ExceptT ε MachineM α} (h : Silent x.run) (f : ε → ε') :
    Silent (x.adapt f).run := by
  rw [ExceptT.run_adapt]
  exact fun machine ↦ h machine

theorem silent_change (operation : FileTree → Except OsError FileTree) :
    Silent (Machine.change operation) := fun machine ↦ by
  unfold Machine.change
  cases operation machine.files <;> rfl

theorem silent_attempt {action : MachineM (Except OsError α)} (h : Silent action)
    (path : String) : Silent (attempt path action).run :=
  h.bind fun _ ↦ silent_pure _

/-! ## Files -/

theorem silent_replaceFile (path : String) (content : List UInt8) :
    Silent (replaceFile path content : ExceptT FileFault MachineM Unit).run := by
  have hparent : Silent (createParent path : ExceptT FileFault MachineM Unit).run := by
    unfold createParent
    split
    · exact silent_attempt (fun _ ↦ rfl) _
    · exact silent_pure _
  exact hparent.followed fun _ ↦ (silent_attempt (silent_change _) _).followed fun _ ↦
    silent_attempt (silent_change _) _

theorem silent_readIfPresent (path : String) :
    Silent (readIfPresent path : ExceptT FileFault MachineM _).run :=
  fun machine ↦ by
    have hread := run_readIfPresent_eq
      (show (readFile path : MachineM _) machine = (machine.files.read path, machine) from rfl)
    exact congrArg (·.2.ledger) hread

end Silent

namespace FileCatalog

theorem silent_read (path : String) : Silent (read path : ExceptT CatalogError MachineM _).run := by
  refine ((silent_readIfPresent path).adapt ofFault).followed fun content ↦ ?_
  cases content <;> exact silent_pure _

theorem silent_write (path : String) (catalog : Catalog) :
    Silent (write path catalog : ExceptT CatalogError MachineM Unit).run :=
  (silent_replaceFile path _).adapt ofFault

theorem silent_lookup (path name : String) : Silent (lookup path name : MachineM _) :=
  (silent_read path).followed fun _ ↦ silent_pure _

theorem silent_append (path : String) (request : AppendRequest) (keep : Bool) (mode : CommitMode) :
    Silent (append path request keep mode : MachineM _) := by
  refine (silent_read path).followed fun catalog ↦ ?_
  cases catalog.append? request keep mode with
  | some changed => exact (silent_write path changed).followed fun _ ↦ silent_pure _
  | none => exact silent_pure _

theorem silent_insert (path : String) (manifests : List Manifest) :
    Silent (insert path manifests : MachineM _) :=
  (silent_read path).followed fun _ ↦ silent_write path _

end FileCatalog

theorem FileStore.silent_load (path : String) : Silent (load path : MachineM _) := by
  refine ((silent_readIfPresent path).adapt ofFault).followed fun content ↦ ?_
  cases content <;> exact silent_pure _

/-! ## Events of listings and stores -/

/-- Whether all metrics that an event updates are of no table. -/
def MetricEvent.IsForeign (event : MetricEvent) : Prop :=
  ∀ change ∈ event.updates, ∀ table, ¬change.1.isOf table

theorem MetricLedger.value_record_of_foreign {event : MetricEvent} (h : event.IsForeign)
    {table : String} {metric : Metric} (hof : metric.isOf table) (ledger : MetricLedger) :
    (ledger.record event).value metric = ledger.value metric := by
  have hother : ∀ change ∈ event.updates, change.1 ≠ metric :=
    fun change hchange hsame ↦ h change hchange table (hsame ▸ hof)
  unfold record
  generalize event.updates = changes at hother
  induction changes generalizing ledger with
  | nil => rfl
  | cons change rest ih =>
    obtain ⟨hchange, hrest⟩ := List.forall_mem_cons.1 hother
    rw [List.foldl_cons, ih _ hrest, value_update_of_ne ledger hchange]

/-- Events that tell of listings and stores are of no table. -/
theorem isForeign_of_size (bytes : Nat) : (MetricEvent.checkpointStateSize bytes).IsForeign := by
  simp [MetricEvent.IsForeign, MetricEvent.updates, Metric.isOf]

theorem isForeign_of_listed (backend : String) :
    (MetricEvent.directoryListed backend).IsForeign := by
  simp [MetricEvent.IsForeign, MetricEvent.updates, Metric.isOf]

theorem isForeign_of_unlisted (backend : String) :
    (MetricEvent.directoryListingFailed backend).IsForeign := by
  simp [MetricEvent.IsForeign, MetricEvent.updates, Metric.isOf]

/-- Whether a program leaves all metrics of tables as they are. -/
def SparesTables {α : Type} (x : MachineM α) : Prop :=
  ∀ machine table (metric : Metric), metric.isOf table →
    (x machine).2.ledger.value metric = machine.ledger.value metric

theorem Silent.sparesTables {α : Type} {x : MachineM α} (h : Silent x) : SparesTables x :=
  fun machine _ metric _ ↦ congrArg (·.value metric) (h machine)

theorem SparesTables.bind {α β : Type} {x : MachineM α} {f : α → MachineM β} (hx : SparesTables x)
    (hf : ∀ value, SparesTables (f value)) : SparesTables (x >>= f) :=
  fun machine table metric hof ↦
    (hf (x machine).1 (x machine).2 table metric hof).trans (hx machine table metric hof)

theorem sparesTables_emit {event : MetricEvent} (h : event.IsForeign) :
    SparesTables (emit event : MachineM Unit) :=
  fun machine _ _ hof ↦ MetricLedger.value_record_of_foreign h hof machine.ledger

theorem FileStore.sparesTables_store (path : String) (snapshots : List Snapshot) :
    SparesTables (store path snapshots : MachineM _) :=
  (sparesTables_emit (isForeign_of_size _)).bind fun _ ↦
    ((silent_replaceFile path _).adapt ofFault).sparesTables

theorem silent_listDisk [Url.DomainNames] (directory : String) :
    Silent (listDisk directory : MachineM _) := by
  unfold listDisk
  split
  · exact silent_pure _
  · refine Silent.bind (fun _ ↦ rfl) fun listed ↦ ?_
    cases listed <;> exact silent_pure _

section Listing

variable [MonadObjectStore MachineM]
  (hask : ∀ address key, Silent (listStore address key : MachineM _))

include hask

theorem silent_listRemote (address : StoreAddress) (listing : ObjectListing) (directory : String) :
    Silent (listRemote address listing directory : MachineM _) := by
  unfold listRemote
  split
  · exact silent_pure _
  · exact (hask _ _).bind fun _ ↦ silent_pure _

/-- A listing emits under the name of its back end only, as long as the stores outside of the
machine emit nothing. -/
theorem sparesTables_listing [Url.DomainNames] (location : Location) (directory : String) :
    SparesTables (location.listing directory : MachineM _) := by
  unfold Location.listing measured
  refine SparesTables.bind ?_ fun result ↦ ?_
  · split
    · exact (silent_listDisk directory).sparesTables
    · exact (silent_pure _).sparesTables
    · exact (silent_listRemote hask _ _ directory).sparesTables
  · cases result with
    | ok entries =>
      exact (sparesTables_emit (isForeign_of_listed _)).bind fun _ ↦ (silent_pure _).sparesTables
    | error e =>
      exact (sparesTables_emit (isForeign_of_unlisted _)).bind fun _ ↦ (silent_pure _).sparesTables

end Listing

/-! ## A coordinator at work -/

section Working

variable [Url.DomainNames] [MonadObjectStore MachineM]
  (hask : ∀ address key, Silent (listStore address key : MachineM _))
  (catalogPath statePath : String) (location : Location) (table : String)

include hask

/-- The books of a table are kept by a call that a coordinator makes on a machine. -/
theorem books_of_took {machine after : Machine} {exchange : Exchange}
    (h : Took (answering ⟨FileCatalog.client catalogPath, location.listing⟩ (fileStore statePath))
      machine exchange after) : Books table machine.ledger exchange after.ledger := by
  obtain ⟨call, answer⟩ := exchange
  have hspares (hcall : SparesTables (answering
      ⟨FileCatalog.client catalogPath, location.listing⟩ (fileStore statePath) call))
      (metric : Metric) (hof : metric.isOf table) :
      after.ledger.value metric = machine.ledger.value metric := by
    have htook : (answering ⟨FileCatalog.client catalogPath, location.listing⟩
        (fileStore statePath) call : MachineM _) machine = (answer, after) := h
    have hvalue := hcall machine table metric hof
    rwa [htook] at hvalue
  cases call with
  | lookup name => exact hspares (FileCatalog.silent_lookup catalogPath name).sparesTables
  | append request keep mode =>
    exact hspares (FileCatalog.silent_append catalogPath request keep mode).sparesTables
  | insert manifests => exact hspares (FileCatalog.silent_insert catalogPath manifests).sparesTables
  | list directory => exact hspares (sparesTables_listing hask location directory)
  | load => exact hspares (FileStore.silent_load statePath).sparesTables
  | store snapshots => exact hspares (FileStore.sparesTables_store statePath snapshots)
  | emit event => exact (congrArg (·.2.ledger) h).symm
  | freshId => exact hspares (Silent.sparesTables fun _ ↦ rfl)
  | currentTime => exact hspares (Silent.sparesTables fun _ ↦ rfl)

/-- All that a coordinator does on a machine is in the books of its table. -/
theorem books_of_along {machine after : Machine} {transcript : List Exchange}
    (h : Along (Took (answering ⟨FileCatalog.client catalogPath, location.listing⟩
      (fileStore statePath))) machine transcript after) :
    Along (Books table) machine.ledger transcript after.ledger := by
  induction transcript generalizing machine with
  | nil => exact congrArg Machine.ledger h
  | cons exchange rest ih =>
    obtain ⟨between, htook, hrest⟩ := h
    exact ⟨between.ledger, books_of_took hask catalogPath statePath location table htook, ih hrest⟩

/-- A run on a machine is accounted for in its ledger: every completed checkpoint once, and each
failure under its stage. -/
theorem Run.accounts_on_machine {start current : Coordinator} {steps : List Step}
    (hrun : Run start steps current) {machine last : Machine}
    (h : Along (Took (answering ⟨FileCatalog.client catalogPath, location.listing⟩
      (fileStore statePath))) machine (steps.flatMap Step.transcript) last) :
    Growths start.label steps machine.ledger last.ledger ∧
      machine.ledger.growth last.ledger (.quorumsReached start.label) =
        machine.ledger.growth last.ledger (.commitDurations start.label) +
          machine.ledger.growth last.ledger (.commitsRejected start.label) +
          (machine.ledger.growth last.ledger (.commitsFailed start.label .lookup) +
            machine.ledger.growth last.ledger (.commitsFailed start.label .listing) +
            machine.ledger.growth last.ledger (.commitsFailed start.label .snapshot) +
            machine.ledger.growth last.ledger (.commitsFailed start.label .manifest)) +
          steps.countP Step.findsNothing := by
  have hgrowths := hrun.growths (books_of_along hask catalogPath statePath location start.label h)
  exact ⟨hgrowths, hgrowths.balance hrun⟩

end Working

end CommitCoordinator
