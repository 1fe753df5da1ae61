import CommitCoordinator.Machine
import CommitCoordinator.Proofs.Collection.Lookup
import CommitCoordinator.Proofs.Storage.Replacing

/-!
# Trees without links

In a tree without links a path leads to the same place after a change elsewhere, as long as the
directories on its way remain. So machines without links keep the promises of file systems.
-/

namespace CommitCoordinator.Storage

namespace FileTree

variable {tree changed : FileTree} {route : Route} {content : Content}

/-- Whether no link stands in the tree. -/
def LinkFree (tree : FileTree) : Prop :=
  ∀ route target, tree.node? route ≠ some (.link target)

theorem node?_insertNode_self (tree : FileTree) (h : route ≠ []) (node : Node) :
    (tree.insertNode route node).node? route = some node := by
  rw [node?, if_neg h]
  exact SequencedMap.find?_insert_self tree.nodes route node

theorem node?_insertNode_of_ne (tree : FileTree) {other : Route} (h : other ≠ route) (node : Node) :
    (tree.insertNode route node).node? other = tree.node? other := by
  unfold node?
  split
  · rfl
  · exact SequencedMap.find?_insert_of_ne tree.nodes node h

theorem node?_eraseNode_of_ne (tree : FileTree) {other : Route} (h : other ≠ route) :
    (tree.eraseNode route).node? other = tree.node? other := by
  unfold node?
  split
  · rfl
  · exact SequencedMap.find?_erase_of_ne tree.nodes h

/-- Whatever stands in a tree after an insertion was inserted or stood there before. -/
theorem node?_insertNode (tree : FileTree) (route : Route) (node : Node) (other : Route) :
    (tree.insertNode route node).node? other = some node ∨
      (tree.insertNode route node).node? other = tree.node? other := by
  by_cases hother : other = route
  · by_cases hroot : route = []
    · subst hother hroot
      exact .inr rfl
    · subst hother
      exact .inl (node?_insertNode_self tree hroot node)
  · exact .inr (node?_insertNode_of_ne tree hother node)

namespace LinkFree

theorem insertNode (h : tree.LinkFree) (route : Route) {node : Node}
    (hnode : ∀ target, node ≠ .link target) :
    (tree.insertNode route node).LinkFree := by
  intro other target hlink
  rcases node?_insertNode tree route node other with hsome | hsome
  · rw [hsome] at hlink
    exact hnode target (Option.some.inj hlink)
  · exact h other target (hsome ▸ hlink)

theorem eraseNode (h : tree.LinkFree) (route : Route) : (tree.eraseNode route).LinkFree := by
  intro other target hlink
  by_cases hother : other = route
  · subst hother
    unfold node? at hlink
    split at hlink
    · cases hlink
    · cases hlink.symm.trans (SequencedMap.find?_erase_self tree.nodes other)
  · exact h other target (node?_eraseNode_of_ne tree hother ▸ hlink)

end LinkFree

/-! ## Walks -/

/-- Walks along the parts of a path and refuses to follow links. -/
def stroll (tree : FileTree) (here : Route) : List String → Except OsError Place
  | [] => .ok (.found here .dir)
  | part :: rest =>
    if part = "" ∨ part = "." then tree.stroll here rest
    else if part = ".." then tree.stroll here.dropLast rest
    else if maxPartLength < part.utf8ByteSize then .error .nameTooLong
    else
      match tree.node? (here ++ [part]) with
      | none =>
        if rest.all (· = "") then .ok (.vacant (here ++ [part]) (!rest.isEmpty))
        else .error .notFound
      | some .dir => tree.stroll (here ++ [part]) rest
      | some (.file content) =>
        if rest.isEmpty then .ok (.found (here ++ [part]) (.file content))
        else .error .notADirectory
      | some (.link _) => .error .tooManyLinks

/-- Without links, it does not matter which of them may be followed. -/
theorem LinkFree.walk_eq_stroll (h : tree.LinkFree) (followLast : Bool) (links : Nat)
    (here : Route) (parts : List String) :
    tree.walk followLast links here parts = tree.stroll here parts := by
  induction parts generalizing here with
  | nil => rw [walk, stroll]
  | cons part rest ih =>
    rw [walk, stroll, ih here, ih here.dropLast]
    dsimp only
    cases hnode : tree.node? (here ++ [part]) with
    | none => rfl
    | some node =>
      cases node with
      | dir => rw [ih (here ++ [part])]
      | file content => rfl
      | link target => exact absurd hnode (h _ target)

/-- Where the walk along a path begins. -/
def start (tree : FileTree) (path : String) : Route :=
  if isAbsolute path then [] else tree.workingDir

/-- Whether the operating system takes a text for a path at all. -/
def Usable (path : String) : Prop :=
  ¬path.toList.contains '\x00' ∧ ¬path.isEmpty ∧ ¬maxPathLength ≤ path.utf8ByteSize

instance (path : String) : Decidable (Usable path) :=
  inferInstanceAs (Decidable (_ ∧ _ ∧ _))

theorem resolve_of_usable {followLast : Bool} {path : String} (h : Usable path) :
    tree.resolve followLast path =
      tree.walk followLast maxLinks (tree.start path) (pathParts path) := by
  obtain ⟨hnul, hempty, hlength⟩ := h
  rw [resolve, if_neg hnul, if_neg hempty, if_neg hlength]
  rfl

theorem usable_of_resolve {followLast : Bool} {path : String} {place : Place}
    (h : tree.resolve followLast path = .ok place) : Usable path := by
  unfold resolve at h
  split at h
  · cases h
  · next hnul =>
    split at h
    · cases h
    · next hempty =>
      split at h
      · cases h
      · next hlength => exact ⟨hnul, hempty, hlength⟩

theorem LinkFree.resolve_eq_stroll (h : tree.LinkFree) {path : String} (husable : Usable path)
    (followLast : Bool) :
    tree.resolve followLast path = tree.stroll (tree.start path) (pathParts path) := by
  rw [resolve_of_usable husable, h.walk_eq_stroll]

theorem LinkFree.resolve_eq_ok (h : tree.LinkFree) {followLast : Bool} {path : String}
    {place : Place} :
    tree.resolve followLast path = .ok place ↔
      Usable path ∧ tree.stroll (tree.start path) (pathParts path) = .ok place := by
  constructor
  · intro hplace
    have husable := usable_of_resolve hplace
    exact ⟨husable, h.resolve_eq_stroll husable followLast ▸ hplace⟩
  · intro ⟨husable, hplace⟩
    rw [h.resolve_eq_stroll husable, hplace]

/-- Where the file of a path stands or would be created. -/
def Place.fileRoute? : Place → Option Route
  | .found route (.file _) => some route
  | .vacant route false => some route
  | _ => none

/-- The place of a file at the end of a route. -/
def placeAt (tree : FileTree) (route : Route) : Place :=
  match tree.node? route with
  | some node => .found route node
  | none => .vacant route false

/-- Whether the tree is as a place says, except for directories. No place is a link. -/
def Place.Stands (tree : FileTree) : Place → Prop
  | .found _ .dir => True
  | .found route (.file content) => tree.node? route = some (.file content)
  | .found _ (.link _) => False
  | .vacant route _ => tree.node? route = none

theorem stands_of_stroll {here : Route} {parts : List String} {place : Place}
    (h : tree.stroll here parts = .ok place) : place.Stands tree := by
  fun_induction tree.stroll here parts with
  | case1 => cases h; trivial
  | case2 _ _ _ _ ih => exact ih h
  | case3 _ _ _ ih => exact ih h
  | case5 _ _ _ _ _ _ hnode _ => cases h; exact hnode
  | case7 _ _ _ _ _ _ _ ih => exact ih h
  | case8 _ _ _ _ _ _ _ hnode _ => cases h; exact hnode
  | case4 => cases h
  | case6 => cases h
  | case9 => cases h
  | case10 => cases h

/-- A walk to a directory is the same as long as no directory is gone. -/
theorem stroll_of_dir (hdirs : ∀ dir, tree.node? dir = some .dir → changed.node? dir = some .dir)
    {here : Route} {parts : List String} (h : tree.stroll here parts = .ok (.found route .dir)) :
    changed.stroll here parts = .ok (.found route .dir) := by
  fun_induction tree.stroll here parts with
  | case1 => cases h; rfl
  | case2 here part rest hidle ih => rw [stroll, if_pos hidle, ih h]
  | case3 here rest hidle ih => rw [stroll, if_neg hidle, if_pos rfl, ih h]
  | case7 here part rest hidle hup hlength hnode ih =>
    rw [stroll, if_neg hidle, if_neg hup, if_neg hlength, hdirs _ hnode]
    exact ih h
  | case4 => cases h
  | case5 => cases h
  | case6 => cases h
  | case8 => cases h
  | case9 => cases h
  | case10 => cases h

/-- The last part of a walk ends at the place that it leads to. -/
theorem last_of_stroll (hchanged : changed.LinkFree) :
    (match changed.node? route with
      | none =>
        if ([] : List String).all (· = "") then .ok (.vacant route (!([] : List String).isEmpty))
        else .error .notFound
      | some .dir => changed.stroll route []
      | some (.file content) =>
        if ([] : List String).isEmpty then .ok (.found route (.file content))
        else .error .notADirectory
      | some (.link _) => .error .tooManyLinks : Except OsError Place) =
      .ok (changed.placeAt route) := by
  unfold placeAt
  cases hnode : changed.node? route with
  | none => rfl
  | some node =>
    cases node with
    | dir => rfl
    | file content => rfl
    | link target => exact absurd hnode (hchanged route target)

/-- A walk to the place of a file leads there as long as no directory is gone, whatever file comes
or goes. -/
theorem stroll_of_fileRoute
    (hdirs : ∀ dir, tree.node? dir = some .dir → changed.node? dir = some .dir)
    (hchanged : changed.LinkFree) {here : Route} {parts : List String} {place : Place}
    (h : tree.stroll here parts = .ok place) (hplace : place.fileRoute? = some route) :
    changed.stroll here parts = .ok (changed.placeAt route) := by
  fun_induction tree.stroll here parts with
  | case1 => cases h; cases hplace
  | case2 here part rest hidle ih => rw [stroll, if_pos hidle, ih h]
  | case3 here rest hidle ih => rw [stroll, if_neg hidle, if_pos rfl, ih h]
  | case5 here part rest hidle hup hlength hnode hall =>
    cases h
    cases rest with
    | nil =>
      cases hplace
      rw [stroll, if_neg hidle, if_neg hup, if_neg hlength]
      exact last_of_stroll hchanged
    | cons => cases hplace
  | case7 here part rest hidle hup hlength hnode ih =>
    rw [stroll, if_neg hidle, if_neg hup, if_neg hlength, hdirs _ hnode]
    exact ih h
  | case8 here part rest hidle hup hlength old hnode hrest =>
    cases h
    cases hplace
    cases rest with
    | nil =>
      rw [stroll, if_neg hidle, if_neg hup, if_neg hlength]
      exact last_of_stroll hchanged
    | cons => cases hrest
  | case4 => cases h
  | case6 => cases h
  | case9 => cases h
  | case10 => cases h

/-- The place of a file holds no directory, so it is not the root. -/
theorem Place.Stands.node?_ne_dir {place : Place} (h : place.Stands tree)
    (hplace : place.fileRoute? = some route) : tree.node? route ≠ some .dir := by
  intro hdir
  cases place with
  | found other node =>
    cases node with
    | file content => cases hplace; cases h.symm.trans hdir
    | dir => cases hplace
    | link target => cases h
  | vacant other slash =>
    cases slash with
    | true => cases hplace
    | false => cases hplace; cases h.symm.trans hdir

/-! ## Reading what was written -/

/-- A path to the place of a file leads there as long as no directory is gone. -/
theorem LinkFree.resolve_of_fileRoute {followLast : Bool} {path : String} {place : Place}
    (hfree : tree.LinkFree) (hchanged : changed.LinkFree)
    (hstart : changed.workingDir = tree.workingDir)
    (hdirs : ∀ dir, tree.node? dir = some .dir → changed.node? dir = some .dir)
    (h : tree.resolve followLast path = .ok place) (hplace : place.fileRoute? = some route)
    (followLast' : Bool) :
    changed.resolve followLast' path = .ok (changed.placeAt route) := by
  obtain ⟨husable, hstroll⟩ := hfree.resolve_eq_ok.1 h
  have hsame : changed.start path = tree.start path := by rw [start, start, hstart]
  refine hchanged.resolve_eq_ok.2 ⟨husable, ?_⟩
  exact hsame ▸ stroll_of_fileRoute hdirs hchanged hstroll hplace

/-- A file that came to the place of a path, in a tree that kept its directories, can be read. -/
theorem read_of_fileRoute {followLast : Bool} {path : String} {place : Place}
    (hfree : tree.LinkFree) (hchanged : changed.LinkFree)
    (hstart : changed.workingDir = tree.workingDir)
    (hdirs : ∀ dir, tree.node? dir = some .dir → changed.node? dir = some .dir)
    (hfile : changed.node? route = some (.file content))
    (h : tree.resolve followLast path = .ok place) (hplace : place.fileRoute? = some route) :
    changed.read path = .ok content.toList := by
  have hresolve := hfree.resolve_of_fileRoute hchanged hstart hdirs h hplace true
  rw [placeAt, hfile] at hresolve
  rw [read, hresolve]

theorem read_eq_ok {path : String} {bytes : List UInt8} (h : tree.read path = .ok bytes) :
    ∃ route content, tree.resolve true path = .ok (.found route (.file content)) ∧
      content.toList = bytes := by
  unfold read at h
  split at h
  · cases h
  · next route content hresolve =>
    cases h
    exact ⟨route, content, hresolve, rfl⟩
  · cases h
  · cases h

theorem write_eq_ok {path : String} (h : tree.write path content = .ok changed) :
    ∃ place route, tree.resolve true path = .ok place ∧ place.fileRoute? = some route ∧
      changed = tree.insertNode route (.file content) := by
  unfold write at h
  split at h
  · cases h
  · next route old hresolve =>
    cases h
    exact ⟨_, route, hresolve, rfl, rfl⟩
  · cases h
  · cases h
  · next route hresolve =>
    cases h
    exact ⟨_, route, hresolve, rfl, rfl⟩

/-- What a move of anything does, to a link or to the place of a file. -/
theorem renameTo_eq_ok {source target : String} (h : tree.renameTo source target = .ok changed) :
    ∃ sourceRoute node place route, tree.resolve false source = .ok (.found sourceRoute node) ∧
      tree.resolve false target = .ok place ∧
      (place.fileRoute? = some route ∨ ∃ other, place = .found route (.link other)) ∧
      changed = if route = sourceRoute then tree
        else (tree.eraseNode sourceRoute).insertNode route node := by
  have hpush {route sourceRoute : Route} {node : Node} (h : (if route = sourceRoute then
      (.ok tree : Except OsError FileTree)
      else .ok ((tree.eraseNode sourceRoute).insertNode route node)) = .ok changed) :
      changed = if route = sourceRoute then tree
        else (tree.eraseNode sourceRoute).insertNode route node := by
    rw [← apply_ite Except.ok] at h
    exact (Except.ok.inj h).symm
  unfold FileTree.renameTo at h
  split at h
  · cases h
  · cases h
  · next sourceRoute node hsource =>
    split at h
    · cases h
    · cases h
    · cases h
    · next route other hdir htarget =>
      refine ⟨sourceRoute, node, _, route, hsource, htarget, ?_, hpush h⟩
      cases other with
      | dir => exact absurd rfl hdir
      | file content => exact .inl rfl
      | link other => exact .inr ⟨other, rfl⟩
    · next route htarget =>
      exact ⟨sourceRoute, node, _, route, hsource, htarget, .inl rfl, hpush h⟩

/-- Without links, a move leads to the place of a file. -/
theorem LinkFree.renameTo_eq_ok (hfree : tree.LinkFree) {source target : String}
    (h : tree.renameTo source target = .ok changed) :
    ∃ sourceRoute node place route, tree.resolve false source = .ok (.found sourceRoute node) ∧
      tree.resolve false target = .ok place ∧ place.fileRoute? = some route ∧
      changed = if route = sourceRoute then tree
        else (tree.eraseNode sourceRoute).insertNode route node := by
  obtain ⟨sourceRoute, node, place, route, hsource, htarget, hplace | ⟨other, rfl⟩, hchanged⟩ :=
    FileTree.renameTo_eq_ok h
  · exact ⟨sourceRoute, node, place, route, hsource, htarget, hplace, hchanged⟩
  · cases stands_of_stroll (hfree.resolve_eq_ok.1 htarget).2

/-- A written file can be read. -/
theorem LinkFree.write (hfree : tree.LinkFree) {path : String}
    (h : tree.write path content = .ok changed) :
    changed.LinkFree ∧ changed.read path = .ok content.toList := by
  obtain ⟨place, route, hresolve, hplace, rfl⟩ := write_eq_ok h
  have hchanged : (tree.insertNode route (.file content)).LinkFree :=
    hfree.insertNode route fun _ ↦ nofun
  have hroute := (stands_of_stroll (hfree.resolve_eq_ok.1 hresolve).2).node?_ne_dir hplace
  have hroot : route ≠ [] := fun hroot ↦ hroute (hroot ▸ rfl)
  refine ⟨hchanged, ?_⟩
  refine read_of_fileRoute hfree hchanged rfl ?_ (node?_insertNode_self tree hroot _) hresolve
    hplace
  intro dir hdir
  have hne : dir ≠ route := fun heq ↦ hroute (heq ▸ hdir)
  exact (node?_insertNode_of_ne tree hne _).trans hdir

/-- A moved file is read at the path it was moved to. -/
theorem LinkFree.renameTo (hfree : tree.LinkFree) {source target : String}
    (h : tree.renameTo source target = .ok changed) :
    changed.LinkFree ∧ ∀ bytes, tree.read source = .ok bytes → changed.read target = .ok bytes := by
  obtain ⟨sourceRoute, node, place, route, hsource, htarget, hplace, rfl⟩ :=
    hfree.renameTo_eq_ok h
  have hnode := stands_of_stroll (hfree.resolve_eq_ok.1 hsource).2
  have hroute := (stands_of_stroll (hfree.resolve_eq_ok.1 htarget).2).node?_ne_dir hplace
  have hlink (target : String) : node ≠ .link target := by
    rintro rfl
    exact hnode
  have hmoved {bytes : List UInt8} (hread : tree.read source = .ok bytes) :
      ∃ content, node = .file content ∧ content.toList = bytes := by
    obtain ⟨other, content, hother, hbytes⟩ := read_eq_ok hread
    cases hother.symm.trans (hfree.resolve_eq_ok.2 (hfree.resolve_eq_ok.1 hsource))
    exact ⟨content, rfl, hbytes⟩
  split
  · next hsame =>
    refine ⟨hfree, fun bytes hread ↦ ?_⟩
    obtain ⟨content, rfl, rfl⟩ := hmoved hread
    exact read_of_fileRoute hfree hfree rfl (fun _ hdir ↦ hdir) (hsame ▸ hnode) htarget hplace
  · have hchanged := (hfree.eraseNode sourceRoute).insertNode route hlink
    refine ⟨hchanged, fun bytes hread ↦ ?_⟩
    obtain ⟨content, rfl, rfl⟩ := hmoved hread
    have hroot : route ≠ [] := fun hroot ↦ hroute (hroot ▸ rfl)
    refine read_of_fileRoute hfree hchanged rfl ?_ (node?_insertNode_self _ hroot _) htarget hplace
    intro dir hdir
    have hne : dir ≠ route := fun heq ↦ hroute (heq ▸ hdir)
    have hsourceNe : dir ≠ sourceRoute := by
      rintro rfl
      cases hdir.symm.trans hnode
    rw [node?_insertNode_of_ne _ hne, node?_eraseNode_of_ne _ hsourceNe, hdir]

/-- Whether directories came to a tree where nothing was before, and nothing else changed. -/
def Furnished (tree changed : FileTree) : Prop :=
  ∀ route, changed.node? route = tree.node? route ∨
    tree.node? route = none ∧ changed.node? route = some .dir

namespace Furnished

theorem refl (tree : FileTree) : tree.Furnished tree :=
  fun _ ↦ .inl rfl

theorem trans {between : FileTree} (h : tree.Furnished between) (h' : between.Furnished changed) :
    tree.Furnished changed := by
  intro route
  rcases h' route with hsame' | ⟨hnone', hdir'⟩
  · rw [hsame']
    exact h route
  · rcases h route with hsame | ⟨-, hdir⟩
    · exact .inr ⟨hsame ▸ hnone', hdir'⟩
    · cases hnone'.symm.trans hdir

theorem linkFree (h : tree.Furnished changed) (hfree : tree.LinkFree) : changed.LinkFree := by
  intro route target hlink
  rcases h route with hsame | ⟨-, hdir⟩
  · exact hfree route target (hsame ▸ hlink)
  · cases hdir.symm.trans hlink

end Furnished

theorem LinkFree.createDir (hfree : tree.LinkFree) {path : String}
    (h : tree.createDir path = .ok changed) : tree.Furnished changed := by
  unfold FileTree.createDir at h
  split at h
  · cases h
  · cases h
  · next vacant slash hresolve =>
    cases h
    intro other
    by_cases hother : other = vacant
    · subst hother
      have hnone : tree.node? other = none :=
        stands_of_stroll (hfree.resolve_eq_ok.1 hresolve).2
      have hroot : other ≠ [] := by
        rintro rfl
        cases hnone
      exact .inr ⟨hnone, node?_insertNode_self tree hroot _⟩
    · exact .inl (node?_insertNode_of_ne tree hother _)

/-- What every single directory keeps that is created on the way is kept by creating them all,
whether or not that succeeds. -/
theorem createDirsWithin_induction {motive : FileTree → Prop} (above : String → Prop)
    (hparent : ∀ path parent, above path → parent? path = some parent → above parent)
    (hstep : ∀ tree changed path, motive tree → above path → tree.createDir path = .ok changed →
      motive changed)
    {path : String} (htree : motive tree) (hpath : above path) (fuel : Nat) :
    motive (tree.createDirsWithin path fuel).1 := by
  induction fuel generalizing path with
  | zero => exact htree
  | succ fuel ih =>
    rw [FileTree.createDirsWithin]
    split
    · exact htree
    · split
      · next created hcreate => exact hstep _ _ _ htree hpath hcreate
      · split
        · exact htree
        · next parent hparent' =>
          have hcreated := ih (hparent _ _ hpath hparent')
          split
          · next between e hbetween =>
            rw [hbetween] at hcreated
            exact hcreated
          · next between hbetween =>
            rw [hbetween] at hcreated
            split
            · next created hcreate => exact hstep _ _ _ hcreated hpath hcreate
            · exact hcreated
      · exact htree

theorem LinkFree.createDirsTo (hfree : tree.LinkFree) (path : String) :
    tree.Furnished (tree.createDirsTo path).1 := by
  apply createDirsWithin_induction (fun _ ↦ True) _ _ (.refl tree) trivial
  · exact fun _ _ _ _ ↦ trivial
  · intro between created path hbetween _ hcreate
    exact hbetween.trans ((hbetween.linkFree hfree).createDir hcreate)

end FileTree

section Machines

variable {machine after : Machine} {result : Except OsError Unit}
  {operation : FileTree → Except OsError FileTree}

theorem change_of_ok {files : FileTree} (h : operation machine.files = .ok files) :
    Machine.change operation machine = (.ok (), { machine with files }) := by
  rw [Machine.change, h]

theorem change_of_error {cause : OsError} (h : operation machine.files = .error cause) :
    Machine.change operation machine = (.error cause, machine) := by
  rw [Machine.change, h]

theorem change_eq (run : Machine.change operation machine = (result, after)) :
    (result = .ok () ∧ operation machine.files = .ok after.files) ∨
      (∃ e, result = .error e) ∧ after = machine := by
  unfold Machine.change at run
  split at run
  · next files hfiles =>
    cases run
    exact .inl ⟨rfl, hfiles⟩
  · next e _ =>
    cases run
    exact .inr ⟨⟨e, rfl⟩, rfl⟩

theorem linkFree_of_change (h : machine.files.LinkFree)
    (hstep : ∀ files, operation machine.files = .ok files → files.LinkFree)
    (run : Machine.change operation machine = (result, after)) : after.files.LinkFree := by
  rcases change_eq run with ⟨-, hfiles⟩ | ⟨-, rfl⟩
  · exact hstep _ hfiles
  · exact h

theorem toOption_eq_some {ε α : Type} {outcome : Except ε α} {value : α}
    (h : outcome.toOption = some value) : outcome = .ok value := by
  cases outcome with
  | error e => cases h
  | ok other => cases h; rfl

/-- Machines without links keep the promises of file systems, about all paths. -/
def FileLaws.ofMachine (path : String) : FileLaws Machine path where
  sound machine := machine.files.LinkFree
  content machine := (machine.files.read path).toOption
  draft machine := (machine.files.read (draftPath path)).toOption
  read {machine after result} h run := by
    change (machine.files.read path, machine) = (result, after) at run
    cases run
    refine ⟨h, rfl, fun bytes hread ↦ ?_, fun hread ↦ ?_⟩ <;> rw [hread] <;> rfl
  create {machine after result} dir h run := by
    cases run
    exact (h.createDirsTo dir).linkFree h
  write bytes h run := by
    refine ⟨linkFree_of_change h (fun _ hwrite ↦ (h.write hwrite).1) run, fun hok ↦ ?_⟩
    rcases change_eq run with ⟨-, hwrite⟩ | ⟨⟨e, he⟩, -⟩
    · rw [(h.write hwrite).2]
      rfl
    · cases hok.symm.trans he
  move h hdraft run := by
    refine ⟨linkFree_of_change h (fun _ hmove ↦ (h.renameTo hmove).1) run, fun hok ↦ ?_⟩
    rcases change_eq run with ⟨-, hmove⟩ | ⟨⟨e, he⟩, -⟩
    · rw [(h.renameTo hmove).2 _ (toOption_eq_some hdraft)]
      rfl
    · cases hok.symm.trans he

end Machines

end CommitCoordinator.Storage
