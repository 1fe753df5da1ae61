import CommitCoordinator.Proofs.Catalog.FileRefinement
import CommitCoordinator.Proofs.Failover.Restored
import CommitCoordinator.Proofs.Router.Desk
import CommitCoordinator.Proofs.Router.Lockstep

/-!
# Machines that are followed at a desk

As long as nothing is in the way of the files of a catalog and of snapshots, a machine answers the
calls of operators as a desk with the same catalog does. So what operators do on the machine can be
found out at the desk, without the text of any file.
-/

namespace CommitCoordinator

open Storage Dialogue

namespace Storage.FileTree

variable {tree : FileTree} {path other : String} {file draft route : Storage.Route}
  {listed : List Listed}

/-- What is listed of a directory at the end of a route. -/
def listedAt (tree : FileTree) (route : Storage.Route) : List Listed :=
  tree.nodes.entries.filterMap fun (other, node) ↦
    (childName? route other).map fun name ↦ ⟨name, node.isDir, node.listedSize⟩

/-- Whether a path leads to a directory in which something is listed. -/
structure Shows (tree : FileTree) (path : String) (route : Storage.Route) (listed : List Listed) :
    Prop where
  leads : tree.resolve true path = .ok (.found route .dir)
  listed : tree.listedAt route = listed

theorem Shows.list_eq (h : tree.Shows path route listed) : tree.list path = .ok listed := by
  rw [list, h.leads, ← h.listed]
  rfl

/-- A file that is replaced elsewhere is not seen in a directory. -/
theorem Shows.replaced (h : tree.Shows path route listed) (hhosts : tree.Hosts other file draft)
    (hfile : childName? route file = none) (hdraft : childName? route draft = none)
    (content : Content) : (tree.replaced file draft content).Shows path route listed where
  leads := by
    obtain ⟨hfree, hdirs⟩ := hhosts.free_replaced content
    exact hhosts.free.resolve_dir_of_change hfree
      (Hosts.workingDir_replaced tree file draft content) (fun dir ↦ (hdirs dir).2) h.leads
  listed := by
    have hwritten (node : Node) {place : Storage.Route} (hplace : childName? route place = none)
        (tree : FileTree) : (tree.insertNode place node).listedAt route = tree.listedAt route :=
      tree.nodes.filterMap_insert (fun value ↦ congrArg (Option.map _) hplace) node
    have herased (tree : FileTree) : (tree.eraseNode draft).listedAt route = tree.listedAt route :=
      tree.nodes.filterMap_erase fun value ↦ congrArg (Option.map _) hdraft
    rw [← h.listed]
    unfold FileTree.replaced
    split
    · exact hwritten _ hdraft tree
    · rw [hwritten _ hfile, herased, hwritten _ hdraft]

end Storage.FileTree

/-! ## Premises -/

/-- A file and its draft in a tree. -/
structure Folder where
  path : String
  file : Storage.Route
  draft : Storage.Route

/-- A directory and what is listed of it. -/
structure Shelf where
  path : String
  route : Storage.Route
  listed : List Listed

/-- Where the files of a catalog and of snapshots lie, and directories that are listed. -/
structure Premises where
  catalog : Folder
  states : List Folder
  shelves : List Shelf

namespace Premises

/-- Whether the files do not get in each other's way, and none of them is listed. -/
structure Tidy (premises : Premises) : Prop where
  apart : ∀ state ∈ premises.states,
    premises.catalog.file ≠ state.file ∧ premises.catalog.file ≠ state.draft
  hidden : ∀ shelf ∈ premises.shelves, ∀ folder ∈ premises.catalog :: premises.states,
    FileTree.childName? shelf.route folder.file = none ∧
      FileTree.childName? shelf.route folder.draft = none

/-- Whether a machine has the files, with the catalog of a desk and the same next identifier. -/
structure Follows (premises : Premises) (machine : Machine) (desk : Desk) : Prop where
  hosts : ∀ folder ∈ premises.catalog :: premises.states,
    machine.files.Hosts folder.path folder.file folder.draft
  shows : ∀ shelf ∈ premises.shelves, machine.files.Shows shelf.path shelf.route shelf.listed
  catalog : machine.files.contentAt premises.catalog.file =
    some (FileCatalog.encode desk.catalog)
  nextId : machine.nextId = desk.drawn
  time : machine.time = 0

variable {premises : Premises} {machine : Machine} {desk : Desk}

namespace Follows

theorem hosts_catalog (h : premises.Follows machine desk) : machine.files.Hosts
    premises.catalog.path premises.catalog.file premises.catalog.draft :=
  h.hosts _ List.mem_cons_self

theorem held_eq (h : premises.Follows machine desk) :
    FileCatalog.held premises.catalog.path (machine.files.read premises.catalog.path).toOption =
      .ok desk.catalog := by
  rw [FileTree.toOption_read h.hosts_catalog.leads, h.catalog]
  exact FileCatalog.decode_encode _ _

/-- Metric events do not matter. -/
theorem of_ledger (h : premises.Follows machine desk) (ledger : MetricLedger) :
    premises.Follows { machine with ledger } desk :=
  ⟨h.hosts, h.shows, h.catalog, h.nextId, h.time⟩

/-- A file is replaced on the machine. -/
theorem of_replaced (h : premises.Follows machine desk) (htidy : premises.Tidy) {folder : Folder}
    (hfolder : folder ∈ premises.catalog :: premises.states) (content : Content) {next : Desk}
    (hcatalog : (machine.files.replaced folder.file folder.draft content).contentAt
      premises.catalog.file = some (FileCatalog.encode next.catalog))
    (hdrawn : next.drawn = desk.drawn) :
    premises.Follows
      { machine with files := machine.files.replaced folder.file folder.draft content } next where
  hosts other hother := (h.hosts other hother).of_replaced (h.hosts folder hfolder) content
  shows shelf hshelf := by
    obtain ⟨hfile, hdraft⟩ := htidy.hidden shelf hshelf folder hfolder
    exact (h.shows shelf hshelf).replaced (h.hosts folder hfolder) hfile hdraft content
  catalog := hcatalog
  nextId := h.nextId.trans hdrawn.symm
  time := h.time

/-- A catalog that is written is that of the desk from then on. -/
theorem of_rewritten (h : premises.Follows machine desk) (htidy : premises.Tidy)
    (catalog : Catalog) :
    premises.Follows
      (FileCatalog.rewritten machine premises.catalog.file premises.catalog.draft catalog)
      { desk with catalog } := by
  refine h.of_replaced htidy List.mem_cons_self _ ?_ rfl
  rw [FileTree.contentAt, h.hosts_catalog.node?_replaced_file]
  rfl

/-- Snapshots that are stored leave the catalog alone. -/
theorem of_stored (h : premises.Follows machine desk) (htidy : premises.Tidy) {state : Folder}
    (hstate : state ∈ premises.states) (content : Content) (snapshots : List Snapshot) :
    premises.Follows
      { machine with files := machine.files.replaced state.file state.draft content }
      { desk with snapshots } := by
  refine h.of_replaced htidy (List.mem_cons_of_mem _ hstate) content ?_ rfl
  obtain ⟨hfile, hdraft⟩ := htidy.apart state hstate
  rw [FileTree.contentAt_congr (FileTree.node?_replaced_of_ne hfile hdraft content), h.catalog]

end Follows

/-! ## Answers -/

/-- The calls of an operator that was not restored, about some directories. -/
def Asks (directories : List String) : Call → Prop
  | .list directory => directory ∈ directories
  | .load => False
  | _ => True

instance (directories : List String) (call : Call) : Decidable (Asks directories call) := by
  unfold Asks
  split <;> infer_instance

variable {listing : Listing MachineM} {found : String → Except StorageError (List Entry)}
  {directories : List String} {state : Folder}

/-- Whether a listing finds the same as a desk, and leaves only metric events behind. -/
def Finds (premises : Premises) (directories : List String) (listing : Listing MachineM)
    (found : String → Except StorageError (List Entry)) : Prop :=
  ∀ directory ∈ directories, ∀ machine desk, premises.Follows machine desk →
    ∃ ledger, (listing directory : MachineM _) machine = (found directory, { machine with ledger })

/-- What is listed is passed on, with a metric event. -/
theorem finds_measured {backend : String}
    (h : ∀ directory ∈ directories, ∀ machine desk, premises.Follows machine desk →
      (listing directory : MachineM _) machine = (found directory, machine)) :
    premises.Finds directories (measured backend listing) found := by
  intro directory hdirectory machine desk hfollows
  rw [measured, state_bind, h directory hdirectory machine desk hfollows]
  cases found directory with
  | ok entries => exact ⟨_, rfl⟩
  | error cause => exact ⟨_, rfl⟩

variable [MonadObjectStore MachineM]

/-- Directories on the disk are found as they are shown. -/
theorem finds_disk [Url.DomainNames]
    (h : ∀ directory ∈ directories, ∃ shelf ∈ premises.shelves, ∃ isUrl,
      localPath directory = .ok (shelf.path, isUrl) ∧
        found directory = .ok (shelf.listed.map (localEntry directory isUrl))) :
    premises.Finds directories Location.disk.listing found := by
  refine finds_measured fun directory hdirectory machine desk hfollows ↦ ?_
  obtain ⟨shelf, hshelf, isUrl, hpath, hfound⟩ := h directory hdirectory
  have hlist : (listDir shelf.path : MachineM _) machine = (.ok shelf.listed, machine) :=
    congrArg (·, machine) (hfollows.shows shelf hshelf).list_eq
  change (listDisk directory : MachineM _) machine = _
  rw [listDisk, hpath]
  dsimp only
  rw [state_bind, hlist, hfound]
  rfl

/-- Directories of a store are found as the store answers. -/
theorem finds_remote [Url.DomainNames] {address : StoreAddress} {objects : ObjectListing}
    {answer : String → Except ObjectStoreError Children}
    (hstore : ∀ key machine,
      (listStore address key : MachineM _) machine = (answer key, machine))
    (h : ∀ directory ∈ directories, found directory =
      (objects.directoryKey directory).bind fun key ↦
        ((answer key).mapError .objectStore).map objects.entriesOf) :
    premises.Finds directories (Location.remote address objects).listing found := by
  refine finds_measured fun directory hdirectory machine desk _ ↦ ?_
  rw [h directory hdirectory]
  dsimp only [listRemote]
  cases objects.directoryKey directory with
  | error cause => rfl
  | ok key =>
    dsimp only
    rw [state_bind, hstore]
    rfl

omit [MonadObjectStore MachineM] in
/-- The machine answers as the desk does. -/
theorem answersAlike {catalogPath statePath : String} (htidy : premises.Tidy)
    (hcatalogPath : premises.catalog.path = catalogPath) (hstate : state ∈ premises.states)
    (hstatePath : state.path = statePath) (hlisting : premises.Finds directories listing found) :
    AnswersAlike premises.Follows (Asks directories)
      (answering ⟨FileCatalog.client catalogPath, listing⟩ (fileStore statePath))
      (answering (Desk.servicesFinding found) memoryStore) := by
  subst hcatalogPath hstatePath
  intro call machine desk hcall h
  rw [Desk.answering_eq]
  have hread := FileCatalog.run_read_of_hosts h.hosts_catalog
  rw [h.held_eq] at hread
  cases call with
  | lookup name => exact .of_eq (run_bind_ok hread _) rfl h
  | append request keep mode =>
    cases hnext : desk.catalog.append? request keep mode with
    | none =>
      have hrun : (FileCatalog.append premises.catalog.path request keep mode : MachineM _)
          machine = (.ok false, machine) := by
        refine (run_bind_ok hread _).trans ?_
        rw [hnext]
        rfl
      refine .of_eq hrun ?_ ?_ <;> rw [Desk.answer, hnext]
      · rfl
      · exact h
    | some next =>
      have hrun : (FileCatalog.append premises.catalog.path request keep mode : MachineM _)
          machine = (.ok true, FileCatalog.rewritten machine premises.catalog.file
            premises.catalog.draft next) := by
        refine (run_bind_ok hread _).trans ?_
        rw [hnext]
        exact run_bind_ok (FileCatalog.run_write_of_hosts h.hosts_catalog next) _
      refine .of_eq hrun ?_ ?_ <;> rw [Desk.answer, hnext]
      · rfl
      · exact h.of_rewritten htidy next
  | insert manifests =>
    have hwrite := FileCatalog.run_write_of_hosts h.hosts_catalog
      (desk.catalog.insertManifests manifests)
    exact .of_eq ((run_bind_ok hread _).trans hwrite) rfl (h.of_rewritten htidy _)
  | list directory =>
    obtain ⟨ledger, hlist⟩ := hlisting directory hcall machine desk h
    exact .of_eq hlist rfl (h.of_ledger ledger)
  | load => cases hcall
  | store snapshots =>
    have hhosts := h.hosts state (List.mem_cons_of_mem _ hstate)
    exact .of_eq (run_store_of_hosts hhosts snapshots) rfl
      ((h.of_stored htidy hstate _ snapshots).of_ledger _)
  | emit event => exact ⟨rfl, h.of_ledger _⟩
  | freshId =>
    have hdrawn : machine.nextId = desk.drawn := h.nextId
    exact ⟨congrArg Uuid.ofNumber hdrawn, h.hosts, h.shows, h.catalog, congrArg (· + 1) hdrawn,
      h.time⟩
  | currentTime => exact ⟨h.time, h⟩

end Premises

end CommitCoordinator
