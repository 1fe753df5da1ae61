import CommitCoordinator.Proofs.Storage.Files
import CommitCoordinator.Proofs.Storage.Hosting
import CommitCoordinator.Proofs.Storage.SpelledPaths

/-!
# Trees in which everything has its place

In a tree without links in which everything stands in a directory, what is read at a path that does
not climb is what stands at the route that it spells. So paths that spell different routes lead to
different files, whatever directories come and go.
-/

namespace CommitCoordinator.Storage

namespace FileTree

variable {tree changed : FileTree} {here route : Route} {parts : List String} {path : String}
  {content : Content}

/-- Whether there are no links and everything stands in a directory. -/
structure Orderly (tree : FileTree) : Prop where
  free : tree.LinkFree
  dir (route : Route) (h : tree.node? route ≠ none) : tree.node? route.dropLast = some .dir
  start : tree.node? tree.workingDir = some .dir

/-- Whether a node is a symbolic link. -/
def isLink : Node → Bool
  | .link _ => true
  | _ => false

namespace Orderly

/-- It is enough to look at the nodes of a tree one after the other. -/
theorem of_entries (hlinks : ∀ entry ∈ tree.nodes.entries, isLink entry.2 = false)
    (hdirs : ∀ entry ∈ tree.nodes.entries, tree.node? entry.1.dropLast = some .dir)
    (hstart : tree.node? tree.workingDir = some .dir) : tree.Orderly := by
  have hmem {route : Route} {node : Node} (hroot : route ≠ [])
      (hnode : tree.node? route = some node) : (route, node) ∈ tree.nodes.entries := by
    rw [node?, if_neg hroot] at hnode
    exact SequencedMap.find?_eq_some_iff.1 hnode
  refine ⟨fun route target hlink ↦ ?_, fun route hsome ↦ ?_, hstart⟩
  · have hroot : route ≠ [] := by
      rintro rfl
      cases hlink
    cases hlinks _ (hmem hroot hlink)
  · by_cases hroot : route = []
    · subst hroot
      rfl
    · obtain ⟨node, hnode⟩ := Option.ne_none_iff_exists'.1 hsome
      exact hdirs _ (hmem hroot hnode)

/-- Nothing stands below what is no directory. -/
theorem node?_below (h : tree.Orderly) (hroute : tree.node? route ≠ some .dir) {names : Route}
    (hnames : names ≠ []) : tree.node? (route ++ names) = none := by
  induction names using List.reverseRecOn with
  | nil => exact absurd rfl hnames
  | append_singleton front last ih =>
    by_contra hsome
    have hdir := h.dir _ hsome
    rw [← List.append_assoc, List.dropLast_concat] at hdir
    by_cases hfront : front = []
    · subst hfront
      exact hroute (List.append_nil route ▸ hdir)
    · cases (ih hfront).symm.trans hdir

theorem node?_start (h : tree.Orderly) (path : String) :
    tree.node? (tree.start path) = some .dir := by
  rw [FileTree.start]
  split
  · rfl
  · exact h.start

/-! ### Changes -/

theorem insertNode (h : tree.Orderly) {node : Node} (hnode : ∀ target, node ≠ .link target)
    (hroute : tree.node? route ≠ some .dir) (hdir : tree.node? route.dropLast = some .dir) :
    (tree.insertNode route node).Orderly := by
  have hkept {dir : Route} (hdir : tree.node? dir = some .dir) :
      (tree.insertNode route node).node? dir = some .dir := by
    have hne : dir ≠ route := fun heq ↦ hroute (heq ▸ hdir)
    rw [node?_insertNode_of_ne tree hne, hdir]
  refine ⟨h.free.insertNode route hnode, fun other hother ↦ ?_, hkept h.start⟩
  by_cases heq : other = route
  · exact heq ▸ hkept hdir
  · rw [node?_insertNode_of_ne tree heq] at hother
    exact hkept (h.dir other hother)

theorem eraseNode (h : tree.Orderly) (hroute : tree.node? route ≠ some .dir) :
    (tree.eraseNode route).Orderly := by
  have hkept {dir : Route} (hdir : tree.node? dir = some .dir) :
      (tree.eraseNode route).node? dir = some .dir := by
    have hne : dir ≠ route := fun heq ↦ hroute (heq ▸ hdir)
    rw [node?_eraseNode_of_ne tree hne, hdir]
  refine ⟨h.free.eraseNode route, fun other hother ↦ ?_, hkept h.start⟩
  by_cases heq : other = route
  · subst heq
    have hroot : other ≠ [] := fun hroot ↦ hroute (hroot ▸ rfl)
    exact absurd (node?_eraseNode_self hroot) hother
  · rw [node?_eraseNode_of_ne tree heq] at hother
    exact hkept (h.dir other hother)

end Orderly

/-! ## Walks in such trees -/

/-- The route to a place. -/
def Place.destination : Place → Route
  | .found route _ => route
  | .vacant route _ => route

/-- Wherever a path leads, the directory of that is there. -/
theorem Orderly.dir_of_stroll (h : tree.Orderly) (hhere : tree.node? here = some .dir)
    {place : Place} (hstroll : tree.stroll here parts = .ok place) :
    tree.node? place.destination.dropLast = some .dir := by
  have hup {route : Route} (hroute : tree.node? route = some .dir) :
      tree.node? route.dropLast = some .dir :=
    h.dir route (hroute ▸ Option.some_ne_none _)
  fun_induction tree.stroll here parts with
  | case1 => cases hstroll; exact hup hhere
  | case2 _ _ _ _ ih => exact ih hhere hstroll
  | case3 _ _ _ ih => exact ih (hup hhere) hstroll
  | case5 => cases hstroll; rwa [Place.destination, List.dropLast_concat]
  | case7 _ _ _ _ _ _ hnode ih => exact ih hnode hstroll
  | case8 => cases hstroll; rwa [Place.destination, List.dropLast_concat]
  | case4 => cases hstroll
  | case6 => cases hstroll
  | case9 => cases hstroll
  | case10 => cases hstroll

theorem spelled?_cons {part : String} {rest : List String} (hidle : ¬(part = "" ∨ part = "."))
    (hup : part ≠ "..") (hlength : ¬maxPartLength < part.utf8ByteSize) :
    spelled? (part :: rest) =
      if rest = [] then some [part] else (spelled? rest).map (part :: ·) := by
  rw [spelled?, if_neg hidle, if_pos ⟨hidle, hup, Nat.le_of_not_lt hlength⟩]

/-- The bytes of the file at a place. -/
def bytesAt : Except OsError Place → Option (List UInt8)
  | .ok (.found _ (.file content)) => some content.toList
  | _ => none

/-- Below what is no directory, only this itself can be a file. -/
theorem Orderly.contentAt_spelled (h : tree.Orderly) {part : String} {rest : List String}
    (hidle : ¬(part = "" ∨ part = ".")) (hup : part ≠ "..")
    (hlength : ¬maxPartLength < part.utf8ByteSize)
    (hnode : tree.node? (here ++ [part]) ≠ some .dir) :
    ((spelled? (part :: rest)).bind fun names ↦ tree.contentAt (here ++ names)) =
      if rest = [] then tree.contentAt (here ++ [part]) else none := by
  rw [spelled?_cons hidle hup hlength]
  split
  · rfl
  · cases hrest : spelled? rest with
    | none => rfl
    | some names =>
      change tree.contentAt (here ++ part :: names) = none
      rw [List.append_cons, contentAt, h.node?_below hnode (spelled?_ne_nil hrest)]

/-- What is found along parts that do not climb is what stands where they spell. -/
theorem Orderly.bytesAt_stroll (h : tree.Orderly) (hclimb : ".." ∉ parts) :
    bytesAt (tree.stroll here parts) =
      (spelled? parts).bind fun names ↦ tree.contentAt (here ++ names) := by
  fun_induction tree.stroll here parts with
  | case1 => rfl
  | case2 here part rest hidle ih =>
    rw [spelled?, if_pos hidle]
    exact ih fun hmem ↦ hclimb (List.mem_cons_of_mem part hmem)
  | case3 => exact absurd List.mem_cons_self hclimb
  | case4 here part rest hidle hup hlength =>
    rw [spelled?, if_neg hidle, if_neg fun hname ↦ absurd hlength (Nat.not_lt.2 hname.2.2)]
    rfl
  | case5 here part rest hidle hup hlength hnode hrest =>
    rw [h.contentAt_spelled hidle hup hlength (by simp [hnode]), contentAt, hnode, ite_self]
    rfl
  | case6 here part rest hidle hup hlength hnode hrest =>
    rw [h.contentAt_spelled hidle hup hlength (by simp [hnode]), contentAt, hnode, ite_self]
    rfl
  | case7 here part rest hidle hup hlength hnode ih =>
    rw [ih fun hmem ↦ hclimb (List.mem_cons_of_mem part hmem), spelled?_cons hidle hup hlength]
    split
    · next hrest =>
      subst hrest
      rw [Option.bind_some, contentAt, hnode]
      rfl
    · rw [Option.bind_map]
      refine congrArg _ (funext fun names ↦ ?_)
      exact congrArg tree.contentAt (List.append_cons here part names).symm
  | case8 here part rest hidle hup hlength content hnode hrest =>
    rw [h.contentAt_spelled hidle hup hlength (by simp [hnode]),
      if_pos (List.isEmpty_iff.1 hrest), contentAt, hnode]
    rfl
  | case9 here part rest hidle hup hlength content hnode hrest =>
    rw [h.contentAt_spelled hidle hup hlength (by simp [hnode]),
      if_neg fun hnil ↦ hrest (List.isEmpty_iff.2 hnil)]
    rfl
  | case10 here part rest hidle hup hlength target hnode => exact absurd hnode (h.free _ target)

/-- The file of a path is where its parts spell. -/
theorem spelled?_of_stroll (hclimb : ".." ∉ parts) {place : Place}
    (hstroll : tree.stroll here parts = .ok place) (hplace : place.fileRoute? = some route) :
    ∃ names, spelled? parts = some names ∧ route = here ++ names := by
  fun_induction tree.stroll here parts with
  | case1 => cases hstroll; cases hplace
  | case2 here part rest hidle ih =>
    rw [spelled?, if_pos hidle]
    exact ih (fun hmem ↦ hclimb (List.mem_cons_of_mem part hmem)) hstroll
  | case3 => exact absurd List.mem_cons_self hclimb
  | case5 here part rest hidle hup hlength hnode hall =>
    cases hstroll
    cases rest with
    | nil =>
      cases hplace
      exact ⟨[part], spelled?_cons hidle hup hlength, rfl⟩
    | cons => cases hplace
  | case7 here part rest hidle hup hlength hnode ih =>
    obtain ⟨names, hnames, rfl⟩ :=
      ih (fun hmem ↦ hclimb (List.mem_cons_of_mem part hmem)) hstroll
    refine ⟨part :: names, ?_, (List.append_cons here part names).symm⟩
    have hrest : rest ≠ [] := by
      rintro rfl
      cases hnames
    rw [spelled?_cons hidle hup hlength, if_neg hrest, hnames]
    rfl
  | case8 here part rest hidle hup hlength old hnode hrest =>
    cases hstroll
    cases hplace
    obtain rfl := List.isEmpty_iff.1 hrest
    exact ⟨[part], spelled?_cons hidle hup hlength, rfl⟩
  | case4 => cases hstroll
  | case6 => cases hstroll
  | case9 => cases hstroll
  | case10 => cases hstroll

/-- A walk along parts that spell a route leads there if the directory at its end is there. -/
theorem Orderly.stroll_of_spelled? (h : tree.Orderly) {names : Route}
    (hnames : spelled? parts = some names)
    (hdir : tree.node? (here ++ names).dropLast = some .dir) :
    tree.stroll here parts = .ok (tree.placeAt (here ++ names)) := by
  induction parts generalizing here names with
  | nil => cases hnames
  | cons part rest ih =>
    rw [spelled?] at hnames
    split at hnames
    · next hidle =>
      rw [stroll, if_pos hidle]
      exact ih hnames hdir
    · next hidle =>
      split at hnames
      · next hname =>
        rw [stroll, if_neg hidle, if_neg hname.2.1, if_neg (Nat.not_lt.2 hname.2.2)]
        split at hnames
        · next hrest =>
          cases hnames
          subst hrest
          exact last_of_stroll h.free
        · obtain ⟨more, hmore, rfl⟩ := Option.map_eq_some_iff.1 hnames
          have hne := spelled?_ne_nil hmore
          rw [List.append_cons here part more] at hdir ⊢
          have hbelow : tree.node? (here ++ [part]) = some .dir := by
            by_contra hnot
            rw [List.dropLast_append_of_ne_nil hne] at hdir
            by_cases hlast : more.dropLast = []
            · rw [hlast, List.append_nil] at hdir
              exact hnot hdir
            · cases (h.node?_below hnot hlast).symm.trans hdir
          rw [hbelow]
          exact ih hmore hdir
      · cases hnames

/-! ## Files -/

theorem toOption_read_eq (tree : FileTree) (path : String) :
    (tree.read path).toOption = bytesAt (tree.resolve true path) := by
  unfold read
  rcases tree.resolve true path with e | ⟨route, node⟩ | _
  · rfl
  · cases node <;> rfl
  · rfl

theorem resolve_of_unusable (h : ¬Usable path) (followLast : Bool) :
    ∃ e, tree.resolve followLast path = .error e := by
  cases hresolve : tree.resolve followLast path with
  | error e => exact ⟨e, rfl⟩
  | ok place => exact absurd (usable_of_resolve hresolve) h

namespace Orderly

/-- What is read at a path is what stands at the route that it spells. -/
theorem read_eq (h : tree.Orderly) (hclimb : Climbless path) :
    (tree.read path).toOption = (routeFrom? tree.workingDir path).bind tree.contentAt := by
  rw [toOption_read_eq, routeFrom?]
  split
  · next husable =>
    rw [h.free.resolve_eq_stroll husable, h.bytesAt_stroll hclimb, Option.bind_map]
    rfl
  · next husable =>
    obtain ⟨e, herror⟩ := resolve_of_unusable husable true
    rw [herror]
    rfl

/-- The file of a path has the route that the path spells. -/
theorem routeFrom?_of_resolve (h : tree.Orderly) (hclimb : Climbless path) {followLast : Bool}
    {place : Place} (hresolve : tree.resolve followLast path = .ok place)
    (hplace : place.fileRoute? = some route) : routeFrom? tree.workingDir path = some route := by
  obtain ⟨husable, hstroll⟩ := h.free.resolve_eq_ok.1 hresolve
  obtain ⟨names, hnames, rfl⟩ := spelled?_of_stroll hclimb hstroll hplace
  rw [routeFrom?, if_pos husable, hnames]
  rfl

/-- A path leads to the route that it spells if the directory at its end is there. -/
theorem leads (h : tree.Orderly) (hroute : routeFrom? tree.workingDir path = some route)
    (hdir : tree.node? route.dropLast = some .dir) (followLast : Bool) :
    tree.resolve followLast path = .ok (tree.placeAt route) := by
  unfold routeFrom? at hroute
  split at hroute
  · next husable =>
    obtain ⟨names, hnames, rfl⟩ := Option.map_eq_some_iff.1 hroute
    exact h.free.resolve_eq_ok.2 ⟨husable, h.stroll_of_spelled? hnames hdir⟩
  · cases hroute

theorem leads_dir (h : tree.Orderly) (hroute : routeFrom? tree.workingDir path = some route)
    (hdir : tree.node? route = some .dir) (followLast : Bool) :
    tree.resolve followLast path = .ok (.found route .dir) := by
  have hparent := h.dir route (hdir ▸ Option.some_ne_none _)
  rw [h.leads hroute hparent followLast, placeAt, hdir]

/-- A file has its place if its directory is there and neither it nor its draft is one itself. -/
theorem hosts (h : tree.Orderly) {file draft : Route}
    (hfile : routeFrom? tree.workingDir path = some file)
    (hdraft : routeFrom? tree.workingDir (draftPath path) = some draft)
    (hparent : ∀ parent ∈ parent? path, parent = "" ∨
      routeFrom? tree.workingDir parent = some file.dropLast)
    (hdir : tree.node? file.dropLast = some .dir) (hdir' : tree.node? draft.dropLast = some .dir)
    (hne : tree.node? file ≠ some .dir) (hne' : tree.node? draft ≠ some .dir) :
    tree.Hosts path file draft where
  free := h.free
  file_ne_dir := hne
  draft_ne_dir := hne'
  leads := h.leads hfile hdir true
  draft_leads := h.leads hdraft hdir' true
  parent parent hsome := (hparent parent hsome).imp_right fun hroute ↦ by
    rw [isDirAt, h.leads_dir hroute hdir true]

theorem dir_of_resolve (h : tree.Orderly) {followLast : Bool} {place : Place}
    (hresolve : tree.resolve followLast path = .ok place) :
    tree.node? place.destination.dropLast = some .dir :=
  h.dir_of_stroll (h.node?_start path) (h.free.resolve_eq_ok.1 hresolve).2

/-- A path is read as before if nothing changed at its route. -/
theorem read_congr (h : tree.Orderly) (hchanged : changed.Orderly)
    (hstart : changed.workingDir = tree.workingDir) (hclimb : Climbless path)
    (hsame : ∀ route, routeFrom? tree.workingDir path = some route →
      changed.contentAt route = tree.contentAt route) :
    (changed.read path).toOption = (tree.read path).toOption := by
  rw [h.read_eq hclimb, hchanged.read_eq hclimb, hstart]
  cases hroute : routeFrom? tree.workingDir path with
  | none => rfl
  | some route => exact hsame route hroute

end Orderly

theorem eq_destination_of_fileRoute? {place : Place} (h : place.fileRoute? = some route) :
    place.destination = route := by
  rcases place with ⟨other, node⟩ | ⟨other, slash⟩
  · cases node <;> cases h
    rfl
  · cases slash <;> cases h
    rfl

/-! ### Operations -/

/-- Whether a tree is still orderly after an operation, with the same working directory. -/
def Orderly.Becomes (tree changed : FileTree) : Prop :=
  changed.Orderly ∧ changed.workingDir = tree.workingDir

namespace Orderly

/-- What is written at a path changes nothing else. -/
theorem write (h : tree.Orderly) (hclimb : Climbless path)
    (hwrite : tree.write path content = .ok changed) :
    Becomes tree changed ∧ ∀ other, Climbless other → Apart tree.workingDir other path →
      (changed.read other).toOption = (tree.read other).toOption := by
  obtain ⟨place, route, hresolve, hplace, rfl⟩ := write_eq_ok hwrite
  have hroute := (stands_of_stroll (h.free.resolve_eq_ok.1 hresolve).2).node?_ne_dir hplace
  have hdir := h.dir_of_resolve hresolve
  rw [eq_destination_of_fileRoute? hplace] at hdir
  have hfile : ∀ target, Node.file content ≠ .link target := fun _ ↦ nofun
  have hchanged := h.insertNode hfile hroute hdir
  refine ⟨⟨hchanged, rfl⟩, fun other hother hapart ↦ ?_⟩
  refine h.read_congr hchanged rfl hother fun route' hroute' ↦ ?_
  have hne : route' ≠ route := by
    rintro rfl
    exact hapart route' hroute' (h.routeFrom?_of_resolve hclimb hresolve hplace)
  exact contentAt_congr (node?_insertNode_of_ne tree hne _)

/-- What is moved over a path changes nothing but the two files. -/
theorem renameTo (h : tree.Orderly) {source : String} (hclimb : Climbless path)
    (hclimb' : Climbless source) {bytes : List UInt8} (hread : tree.read source = .ok bytes)
    (hmove : tree.renameTo source path = .ok changed) :
    Becomes tree changed ∧ ∀ other, Climbless other → Apart tree.workingDir other path →
      Apart tree.workingDir other source →
        (changed.read other).toOption = (tree.read other).toOption := by
  obtain ⟨sourceRoute, node, place, route, hsource, hresolve, hplace, rfl⟩ :=
    h.free.renameTo_eq_ok hmove
  obtain ⟨_, content, hfile, -⟩ := read_eq_ok hread
  cases hfile.symm.trans (h.free.resolve_eq_ok.2 (h.free.resolve_eq_ok.1 hsource))
  have hnode := stands_of_stroll (h.free.resolve_eq_ok.1 hsource).2
  have hsourceRoute := hnode.node?_ne_dir rfl
  have hroute := (stands_of_stroll (h.free.resolve_eq_ok.1 hresolve).2).node?_ne_dir hplace
  have hdir := h.dir_of_resolve hresolve
  rw [eq_destination_of_fileRoute? hplace] at hdir
  split
  · exact ⟨⟨h, rfl⟩, fun _ _ _ _ ↦ rfl⟩
  · next hne =>
    have herased := h.eraseNode hsourceRoute
    have hkept : sourceRoute ≠ route.dropLast := fun heq ↦ hsourceRoute (heq ▸ hdir)
    have hchanged : ((tree.eraseNode sourceRoute).insertNode route (.file content)).Orderly := by
      refine herased.insertNode (fun _ ↦ nofun) ?_ ?_
      · rwa [node?_eraseNode_of_ne tree hne]
      · rwa [node?_eraseNode_of_ne tree hkept.symm]
    refine ⟨⟨hchanged, rfl⟩, fun other hother hapart hapart' ↦ ?_⟩
    refine h.read_congr hchanged rfl hother fun route' hroute' ↦ contentAt_congr ?_
    have hne : route' ≠ route := by
      rintro rfl
      exact hapart route' hroute' (h.routeFrom?_of_resolve hclimb hresolve hplace)
    have hne' : route' ≠ sourceRoute := by
      rintro rfl
      exact hapart' route' hroute' (h.routeFrom?_of_resolve hclimb' hsource rfl)
    rw [node?_insertNode_of_ne _ hne, node?_eraseNode_of_ne _ hne']

theorem createDir (h : tree.Orderly) (hcreate : tree.createDir path = .ok changed) :
    Becomes tree changed := by
  unfold FileTree.createDir at hcreate
  split at hcreate
  · cases hcreate
  · cases hcreate
  · next route slash hresolve =>
    cases hcreate
    have hnone : tree.node? route = none := stands_of_stroll (h.free.resolve_eq_ok.1 hresolve).2
    exact ⟨h.insertNode (fun _ ↦ nofun) (by rw [hnone]; nofun) (h.dir_of_resolve hresolve), rfl⟩

/-- Directories that are created are no files. -/
theorem createDirsTo (h : tree.Orderly) (path : String) :
    Becomes tree (tree.createDirsTo path).1 ∧ ∀ other, Climbless other →
      ((tree.createDirsTo path).1.read other).toOption = (tree.read other).toOption := by
  have hcreated : Becomes tree (tree.createDirsTo path).1 := by
    apply createDirsWithin_induction (fun _ ↦ True) _ _ ⟨h, rfl⟩ trivial
    · exact fun _ _ _ _ ↦ trivial
    · rintro between created dir ⟨hbetween, hstart⟩ - hcreate
      obtain ⟨hcreated, hstart'⟩ := hbetween.createDir hcreate
      exact ⟨hcreated, hstart'.trans hstart⟩
  refine ⟨hcreated, fun other hother ↦ ?_⟩
  exact h.read_congr hcreated.1 hcreated.2 hother fun route _ ↦
    contentAt_of_furnished (h.free.createDirsTo path) route

end Orderly

end FileTree

open FileTree

/-- Machines without links keep the promises about all files whose paths do not climb, as long as
the stores outside of the machine leave it alone. -/
def FilesLaws.ofOrderly [MonadObjectStore MachineM] {files : String → Prop}
    (hask : ∀ address key machine, ((listStore address key : MachineM _) machine).2 = machine)
    (workingDir : Route) (hclimb : ∀ path, files path → Climbless path) :
    FilesLaws Machine files where
  sound machine := machine.files.Orderly ∧ machine.files.workingDir = workingDir
  content machine path := (machine.files.read path).toOption
  apart := Apart workingDir
  apart_symm h := h.symm
  apart_of_names := Apart.of_names
  read {path machine after result} _ h run := by
    cases run
    refine ⟨h, rfl, fun bytes hread ↦ ?_, fun hread ↦ ?_⟩ <;> rw [hread] <;> rfl
  look {path machine after result} _ h run := by
    cases run
    exact ⟨h, rfl, read_of_not_isFileAt⟩
  create {machine after result} dir h run := by
    cases run
    obtain ⟨⟨hcreated, hstart⟩, hsame⟩ := h.1.createDirsTo dir
    exact ⟨⟨hcreated, hstart.trans h.2⟩, fun other hother ↦ hsame other (hclimb other hother)⟩
  write {path machine after result} hpath bytes h run := by
    rcases change_eq run with ⟨hresult, hwrite⟩ | ⟨⟨e, he⟩, rfl⟩
    · obtain ⟨⟨hwritten, hstart⟩, hsame⟩ :=
        h.1.write (climbless_draftPath (hclimb path hpath)) hwrite
      refine ⟨⟨hwritten, hstart.trans h.2⟩, fun _ ↦ ?_, fun other hother hapart ↦ ?_⟩
      · rw [(h.1.free.write hwrite).2]
        rfl
      · exact hsame other (hclimb other hother) (h.2 ▸ hapart)
    · exact ⟨h, fun hok ↦ (by cases hok.symm.trans he), fun _ _ _ ↦ rfl⟩
  move {path machine after result bytes} hpath h hdraft run := by
    rcases change_eq run with ⟨hresult, hmove⟩ | ⟨⟨e, he⟩, rfl⟩
    · have hread := toOption_eq_some hdraft
      have hdrafted := climbless_draftPath (hclimb path hpath)
      obtain ⟨⟨hmoved, hstart⟩, hsame⟩ := h.1.renameTo (hclimb path hpath) hdrafted hread hmove
      refine ⟨⟨hmoved, hstart.trans h.2⟩, fun _ ↦ ?_, fun other hother hapart hapart' ↦ ?_⟩
      · rw [(h.1.free.renameTo hmove).2 bytes hread]
        rfl
      · exact hsame other (hclimb other hother) (h.2 ▸ hapart) (h.2 ▸ hapart')
    · exact ⟨h, fun hok ↦ (by cases hok.symm.trans he), fun _ _ _ _ ↦ rfl⟩
  list _ _ h := ⟨h, rfl⟩
  ask address key machine h := by
    rw [hask address key machine]
    exact ⟨h, rfl⟩
  emit _ _ h := ⟨h, rfl⟩
  fresh _ h := ⟨h, rfl⟩
  time _ h := ⟨h, rfl⟩

end CommitCoordinator.Storage
