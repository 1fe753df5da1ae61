import CommitCoordinator.Proofs.Storage.LinkFree

/-!
# Files that can always be written

A machine hosts a file if the directory of the file is there and neither the file nor the draft
beside it is taken by a directory. Reading and replacing such a file never fails, and it stays so.
-/

namespace CommitCoordinator.Storage

namespace FileTree

/-- Whether a file can be replaced through its draft: both have a place in the tree. -/
structure Hosts (tree : FileTree) (path : String) (file draft : Route) : Prop where
  free : tree.LinkFree
  file_ne_dir : tree.node? file ≠ some .dir
  draft_ne_dir : tree.node? draft ≠ some .dir
  leads : tree.resolve true path = .ok (tree.placeAt file)
  draft_leads : tree.resolve true (draftPath path) = .ok (tree.placeAt draft)
  parent : ∀ parent, parent? path = some parent → parent = "" ∨ tree.isDirAt parent

variable {tree changed : FileTree} {path : String} {file draft : Route} {content : Content}

/-- The bytes of the file at the end of a route. -/
def contentAt (tree : FileTree) (route : Route) : Option (List UInt8) :=
  match tree.node? route with
  | some (.file content) => some content.toList
  | _ => none

theorem contentAt_congr {route : Route} (h : changed.node? route = tree.node? route) :
    changed.contentAt route = tree.contentAt route := by
  rw [contentAt, h, contentAt]

theorem contentAt_of_furnished (h : tree.Furnished changed) (route : Route) :
    changed.contentAt route = tree.contentAt route := by
  rcases h route with hsame | ⟨hnone, hdir⟩
  · exact contentAt_congr hsame
  · rw [contentAt, contentAt, hnone, hdir]

/-- A path is read where it leads. -/
theorem toOption_read {route : Route} (h : tree.resolve true path = .ok (tree.placeAt route)) :
    (tree.read path).toOption = tree.contentAt route := by
  rw [read, h, placeAt, contentAt]
  cases tree.node? route with
  | none => rfl
  | some node => cases node <;> rfl

/-- What is no file has no bytes. -/
theorem read_of_not_isFileAt (h : tree.isFileAt path = false) :
    (tree.read path).toOption = none := by
  unfold isFileAt at h
  unfold read
  split at h
  · cases h
  · next hplace =>
    split
    · rfl
    · next route content hresolve => exact absurd hresolve (hplace route content)
    · rfl
    · rfl

theorem LinkFree.fileRoute?_placeAt {route : Route} (h : tree.LinkFree)
    (hdir : tree.node? route ≠ some .dir) : (tree.placeAt route).fileRoute? = some route := by
  unfold placeAt
  cases hnode : tree.node? route with
  | none => rfl
  | some node =>
    cases node with
    | dir => exact absurd hnode hdir
    | file content => rfl
    | link target => exact absurd hnode (h route target)

theorem eq_of_fileRoute?_placeAt {route other : Route}
    (h : (tree.placeAt route).fileRoute? = some other) : other = route := by
  unfold placeAt at h
  split at h
  · next node _ =>
    cases node <;> cases h
    rfl
  · cases h
    rfl

theorem isDirAt_eq_true (h : tree.isDirAt path) :
    ∃ route, tree.resolve true path = .ok (.found route .dir) := by
  unfold isDirAt at h
  split at h
  · next route hresolve => exact ⟨route, hresolve⟩
  · cases h

/-- A path to a directory leads there as long as no directory is gone. -/
theorem LinkFree.resolve_dir_of_change (hfree : tree.LinkFree) (hchanged : changed.LinkFree)
    (hstart : changed.workingDir = tree.workingDir)
    (hdirs : ∀ dir, tree.node? dir = some .dir → changed.node? dir = some .dir) {route : Route}
    (h : tree.resolve true path = .ok (.found route .dir)) :
    changed.resolve true path = .ok (.found route .dir) := by
  obtain ⟨husable, hstroll⟩ := hfree.resolve_eq_ok.1 h
  have hsame : changed.start path = tree.start path := by rw [start, start, hstart]
  exact hchanged.resolve_eq_ok.2 ⟨husable, hsame ▸ stroll_of_dir hdirs hstroll⟩

theorem LinkFree.isDirAt_of_change (hfree : tree.LinkFree) (hchanged : changed.LinkFree)
    (hstart : changed.workingDir = tree.workingDir)
    (hdirs : ∀ dir, tree.node? dir = some .dir → changed.node? dir = some .dir)
    (h : tree.isDirAt path) : changed.isDirAt path := by
  obtain ⟨route, hresolve⟩ := isDirAt_eq_true h
  rw [isDirAt, hfree.resolve_dir_of_change hchanged hstart hdirs hresolve]

namespace Hosts

/-- A file can still be replaced after a change that leaves the directories alone. -/
theorem of_change (h : tree.Hosts path file draft) (hchanged : changed.LinkFree)
    (hstart : changed.workingDir = tree.workingDir)
    (hdirs : ∀ dir, changed.node? dir = some .dir ↔ tree.node? dir = some .dir) :
    changed.Hosts path file draft where
  free := hchanged
  file_ne_dir := fun hdir ↦ h.file_ne_dir ((hdirs file).1 hdir)
  draft_ne_dir := fun hdir ↦ h.draft_ne_dir ((hdirs draft).1 hdir)
  leads := h.free.resolve_of_fileRoute hchanged hstart (fun dir ↦ (hdirs dir).2) h.leads
    (h.free.fileRoute?_placeAt h.file_ne_dir) true
  draft_leads := h.free.resolve_of_fileRoute hchanged hstart (fun dir ↦ (hdirs dir).2)
    h.draft_leads (h.free.fileRoute?_placeAt h.draft_ne_dir) true
  parent parent hparent := (h.parent parent hparent).imp_right
    (h.free.isDirAt_of_change hchanged hstart fun dir ↦ (hdirs dir).2)

end Hosts

theorem node?_insertNode_eq_dir {route : Route} (h : tree.node? route ≠ some .dir) (dir : Route) :
    (tree.insertNode route (.file content)).node? dir = some .dir ↔
      tree.node? dir = some .dir := by
  by_cases hroute : dir = route
  · subst hroute
    have hroot : dir ≠ [] := fun hroot ↦ h (hroot ▸ rfl)
    rw [node?_insertNode_self tree hroot]
    exact ⟨nofun, fun hdir ↦ absurd hdir h⟩
  · rw [node?_insertNode_of_ne tree hroute]

theorem node?_eraseNode_self {route : Route} (h : route ≠ []) :
    (tree.eraseNode route).node? route = none := by
  rw [node?, if_neg h]
  exact SequencedMap.find?_erase_self tree.nodes route

theorem node?_eraseNode_eq_dir {route : Route} (h : tree.node? route ≠ some .dir) (dir : Route) :
    (tree.eraseNode route).node? dir = some .dir ↔ tree.node? dir = some .dir := by
  by_cases hroute : dir = route
  · subst hroute
    have hroot : dir ≠ [] := fun hroot ↦ h (hroot ▸ rfl)
    rw [node?_eraseNode_self hroot]
    exact ⟨nofun, fun hdir ↦ absurd hdir h⟩
  · rw [node?_eraseNode_of_ne tree hroute]

/-- A directory that is there need not be created. -/
theorem LinkFree.createDirsTo_eq (h : tree.LinkFree) (hdir : path = "" ∨ tree.isDirAt path) :
    tree.createDirsTo path = (tree, .ok ()) := by
  rw [FileTree.createDirsTo, FileTree.createDirsWithin]
  split
  · rfl
  · next hempty =>
    have hat : tree.isDirAt path := hdir.resolve_left fun hpath ↦ hempty (hpath ▸ rfl)
    obtain ⟨route, hresolve⟩ := isDirAt_eq_true hat
    have hcreate : tree.createDir path = .error .fileExists := by
      rw [FileTree.createDir, h.resolve_eq_ok.2 (h.resolve_eq_ok.1 hresolve)]
    rw [hcreate]
    exact congrArg (Prod.mk tree) (if_pos hat)

theorem write_of_fileRoute {route : Route} {place : Place}
    (h : tree.resolve true path = .ok place) (hplace : place.fileRoute? = some route) :
    tree.write path content = .ok (tree.insertNode route (.file content)) := by
  rw [write, h]
  cases place with
  | found other node => cases node <;> cases hplace; rfl
  | vacant other slash => cases slash <;> cases hplace; rfl

theorem renameTo_of_fileRoute {source : String} {sourceRoute route : Route} {node : Node}
    {place : Place} (hsource : tree.resolve false source = .ok (.found sourceRoute node))
    (h : tree.resolve false path = .ok place) (hplace : place.fileRoute? = some route) :
    tree.renameTo source path = .ok (if route = sourceRoute then tree
      else (tree.eraseNode sourceRoute).insertNode route node) := by
  rw [renameTo, hsource]
  dsimp only
  rw [h, apply_ite Except.ok]
  cases place with
  | found other node => cases node <;> cases hplace; rfl
  | vacant other slash => cases slash <;> cases hplace; rfl

/-- The tree after new content was written to the draft and moved over the file. -/
def replaced (tree : FileTree) (file draft : Route) (content : Content) : FileTree :=
  let written := tree.insertNode draft (.file content)
  if file = draft then written else (written.eraseNode draft).insertNode file (.file content)

/-- Nothing else has changed. -/
theorem node?_replaced_of_ne {other : Route} (hfile : other ≠ file) (hdraft : other ≠ draft)
    (content : Content) : (tree.replaced file draft content).node? other = tree.node? other := by
  unfold replaced
  split
  · exact node?_insertNode_of_ne tree hdraft _
  · rw [node?_insertNode_of_ne _ hfile, node?_eraseNode_of_ne _ hdraft,
      node?_insertNode_of_ne _ hdraft]

theorem run_createParent_of_tree {machine : Machine} {parent : String} {created : FileTree}
    (hparent : parent? path = some parent)
    (hcreate : machine.files.createDirsTo parent = (created, .ok ())) :
    (createParent path : ExceptT FileFault MachineM _).run machine =
      (.ok (), { machine with files := created }) := by
  have hdirs : (createDirs parent : MachineM _) machine =
      (.ok (), { machine with files := created }) := by
    change ((machine.files.createDirsTo parent).2,
      { machine with files := (machine.files.createDirsTo parent).1 }) = _
    rw [hcreate]
  rw [createParent, hparent]
  exact run_attempt hdirs parent

/-- A file whose draft is written ends as the move over it does. -/
theorem run_replaceFile_of_write {machine created after : Machine} {written : FileTree}
    {bytes : List UInt8} {result : Except OsError Unit}
    (hparent : (createParent path : ExceptT FileFault MachineM _).run machine = (.ok (), created))
    (hwrite : created.files.write (draftPath path) (.bytes bytes) = .ok written)
    (hmove : (rename (draftPath path) path : MachineM _) { created with files := written } =
      (result, after)) :
    (replaceFile path bytes : ExceptT FileFault MachineM _).run machine =
      (result.mapError (FileFault.mk path), after) := by
  have hdraft : (writeFile (draftPath path) bytes : MachineM _) created =
      (.ok (), { created with files := written }) :=
    change_of_ok hwrite
  unfold replaceFile
  rw [run_bind_ok hparent, run_bind_ok (run_attempt hdraft _)]
  exact run_attempt hmove path

namespace Hosts

theorem write_draft (h : tree.Hosts path file draft) (content : Content) :
    tree.write (draftPath path) content = .ok (tree.insertNode draft (.file content)) :=
  write_of_fileRoute h.draft_leads (h.free.fileRoute?_placeAt h.draft_ne_dir)

theorem written (h : tree.Hosts path file draft) (content : Content) :
    (tree.insertNode draft (.file content)).Hosts path file draft :=
  h.of_change (h.free.insertNode draft fun _ ↦ nofun) rfl (node?_insertNode_eq_dir h.draft_ne_dir)

theorem draft_ne_nil (h : tree.Hosts path file draft) : draft ≠ [] :=
  fun hroot ↦ h.draft_ne_dir (hroot ▸ rfl)

theorem rename_draft (h : tree.Hosts path file draft) (content : Content) :
    (tree.insertNode draft (.file content)).renameTo (draftPath path) path =
      .ok (tree.replaced file draft content) := by
  have hwritten := h.written content
  let written := tree.insertNode draft (.file content)
  have hplace : written.placeAt draft = .found draft (.file content) := by
    rw [placeAt, node?_insertNode_self tree h.draft_ne_nil]
  have hsource : written.resolve false (draftPath path) = .ok (.found draft (.file content)) :=
    hwritten.free.resolve_eq_ok.2 (hwritten.free.resolve_eq_ok.1 (hplace ▸ hwritten.draft_leads))
  have htarget : written.resolve false path = .ok (written.placeAt file) :=
    hwritten.free.resolve_eq_ok.2 (hwritten.free.resolve_eq_ok.1 hwritten.leads)
  exact renameTo_of_fileRoute hsource htarget
    (hwritten.free.fileRoute?_placeAt hwritten.file_ne_dir)

/-- Replacing a file brings no links, and directories neither come nor go. -/
theorem free_replaced (h : tree.Hosts path file draft) (content : Content) :
    (tree.replaced file draft content).LinkFree ∧ ∀ dir,
      (tree.replaced file draft content).node? dir = some .dir ↔ tree.node? dir = some .dir := by
  have hwritten := h.written content
  have hdirs (dir : Route) : (tree.insertNode draft (.file content)).node? dir = some .dir ↔
      tree.node? dir = some .dir :=
    node?_insertNode_eq_dir h.draft_ne_dir dir
  unfold FileTree.replaced
  split
  · exact ⟨hwritten.free, hdirs⟩
  · have herased := hwritten.of_change (hwritten.free.eraseNode draft) rfl
      (node?_eraseNode_eq_dir hwritten.draft_ne_dir)
    refine ⟨herased.free.insertNode file fun _ ↦ nofun, fun dir ↦ ?_⟩
    exact (node?_insertNode_eq_dir herased.file_ne_dir dir).trans
      ((node?_eraseNode_eq_dir hwritten.draft_ne_dir dir).trans (hdirs dir))

theorem workingDir_replaced (tree : FileTree) (file draft : Route) (content : Content) :
    (tree.replaced file draft content).workingDir = tree.workingDir := by
  unfold FileTree.replaced
  split <;> rfl

/-- Replacing a file leaves room for all files. -/
theorem of_replaced (h : tree.Hosts path file draft) {other : String} {file' draft' : Route}
    (h' : tree.Hosts other file' draft') (content : Content) :
    (tree.replaced file' draft' content).Hosts path file draft :=
  h.of_change (h'.free_replaced content).1 (workingDir_replaced tree file' draft' content)
    (h'.free_replaced content).2

/-- The new content stands in the place of the file. -/
theorem node?_replaced_file (h : tree.Hosts path file draft) (content : Content) :
    (tree.replaced file draft content).node? file = some (.file content) := by
  unfold FileTree.replaced
  split
  · next hsame => exact hsame ▸ node?_insertNode_self tree h.draft_ne_nil _
  · have hroot : file ≠ [] := fun hroot ↦ h.file_ne_dir (hroot ▸ rfl)
    exact node?_insertNode_self _ hroot _

/-- The draft is gone. -/
theorem node?_replaced_draft (h : tree.Hosts path file draft) (content : Content)
    (hne : draft ≠ file) : (tree.replaced file draft content).node? draft = none := by
  rw [FileTree.replaced, if_neg hne.symm, node?_insertNode_of_ne _ hne,
    node?_eraseNode_self h.draft_ne_nil]

/-- Only an absent file cannot be read. -/
theorem read_file (h : tree.Hosts path file draft) :
    tree.read path = .error .notFound ∨ ∃ bytes, tree.read path = .ok bytes := by
  rw [read, h.leads, placeAt]
  cases hnode : tree.node? file with
  | none => exact .inl rfl
  | some node =>
    cases node with
    | dir => exact absurd hnode h.file_ne_dir
    | file content => exact .inr ⟨_, rfl⟩
    | link target => exact absurd hnode (h.free file target)

/-! ### On machines -/

variable {machine : Machine}

/-- Reading the file does not fail. -/
theorem run_readIfPresent (h : machine.files.Hosts path file draft) :
    (readIfPresent path : ExceptT FileFault MachineM _).run machine =
      (.ok (machine.files.read path).toOption, machine) := by
  have hrun : (readFile path : MachineM _) machine = (machine.files.read path, machine) := rfl
  rw [run_readIfPresent_eq hrun]
  rcases h.read_file with hread | ⟨bytes, hread⟩ <;> rw [hread] <;> rfl

theorem run_createParent (h : machine.files.Hosts path file draft) :
    (createParent path : ExceptT FileFault MachineM _).run machine = (.ok (), machine) := by
  cases hparent : parent? path with
  | none =>
    rw [createParent, hparent]
    rfl
  | some parent =>
    exact run_createParent_of_tree hparent (h.free.createDirsTo_eq (h.parent parent hparent))

/-- Replacing the file does not fail. -/
theorem run_replaceFile (h : machine.files.Hosts path file draft) (bytes : List UInt8) :
    (replaceFile path bytes : ExceptT FileFault MachineM _).run machine =
      (.ok (), { machine with files := machine.files.replaced file draft (.bytes bytes) }) := by
  exact run_replaceFile_of_write h.run_createParent (h.write_draft _)
    (change_of_ok (h.rename_draft _))

end Hosts

end FileTree

/-! ## Files in the root directory -/

namespace FileTree

/-- Whether a path leads straight to a name in the root directory. -/
def InRoot (path name : String) : Prop :=
  Usable path ∧ isAbsolute path ∧ pathParts path = ["", name] ∧
    ¬(name = "" ∨ name = ".") ∧ name ≠ ".." ∧ ¬maxPartLength < name.utf8ByteSize

instance (path name : String) : Decidable (InRoot path name) :=
  inferInstanceAs (Decidable (_ ∧ _ ∧ _ ∧ _ ∧ _ ∧ _))

variable {tree : FileTree}

theorem InRoot.leads {path name : String} (h : InRoot path name) (hfree : tree.LinkFree)
    (followLast : Bool) : tree.resolve followLast path = .ok (tree.placeAt [name]) := by
  obtain ⟨husable, habsolute, hparts, hidle, hup, hlength⟩ := h
  refine hfree.resolve_eq_ok.2 ⟨husable, ?_⟩
  rw [start, if_pos habsolute, hparts, stroll, if_pos (.inl rfl), stroll, if_neg hidle, if_neg hup,
    if_neg hlength]
  exact last_of_stroll hfree

/-- A file in the root directory is read under its name. -/
theorem InRoot.read_eq {path name : String} (h : InRoot path name) (hfree : tree.LinkFree) :
    (tree.read path).toOption = tree.contentAt [name] :=
  toOption_read (h.leads hfree true)

/-- A tree without links hosts all files in the root directory that are no directories. -/
theorem hosts_of_inRoot (hfree : tree.LinkFree) {path file draft : String}
    (hpath : InRoot path file) (hdraft : InRoot (draftPath path) draft)
    (hparent : parent? path = some "/") (hfile : tree.node? [file] ≠ some .dir)
    (hnext : tree.node? [draft] ≠ some .dir) : tree.Hosts path [file] [draft] where
  free := hfree
  file_ne_dir := hfile
  draft_ne_dir := hnext
  leads := hpath.leads hfree true
  draft_leads := hdraft.leads hfree true
  parent parent h := by
    obtain rfl := Option.some.inj (h.symm.trans hparent)
    have hparts : pathParts "/" = ["", ""] := by decide +kernel
    have hroot : tree.resolve true "/" = .ok (.found [] .dir) := by
      refine hfree.resolve_eq_ok.2 ⟨by decide +kernel, ?_⟩
      rw [hparts]
      rfl
    rw [isDirAt, hroot]
    exact .inr rfl

theorem node?_empty {route : Route} (h : route ≠ []) : (empty []).node? route = none := by
  rw [node?, if_neg h]
  rfl

theorem node?_empty_ne_dir (name : String) : (empty []).node? [name] ≠ some .dir := by
  rw [node?_empty (List.cons_ne_nil name [])]
  exact nofun

theorem linkFree_empty : (empty []).LinkFree := by
  intro route target hlink
  by_cases hroute : route = []
  · subst hroute
    cases hlink
  · cases (node?_empty hroute).symm.trans hlink

/-- A tree without files hosts all files in the root directory. -/
theorem hosts_empty {path file draft : String} (hpath : InRoot path file)
    (hdraft : InRoot (draftPath path) draft) (hparent : parent? path = some "/") :
    (empty []).Hosts path [file] [draft] :=
  hosts_of_inRoot linkFree_empty hpath hdraft hparent (node?_empty_ne_dir file)
    (node?_empty_ne_dir draft)

end FileTree

/-- A machine without any files. -/
def bareMachine : Machine :=
  ⟨.empty [], MetricLedger.empty, 0, 0⟩

end CommitCoordinator.Storage
