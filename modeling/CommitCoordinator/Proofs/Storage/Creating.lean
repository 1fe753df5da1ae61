import CommitCoordinator.Proofs.Checkpoint.Failing
import CommitCoordinator.Proofs.Storage.Halting

/-!
# Creating directories step by step

The directories of a path are created from the first one that is missing. So it does not matter if
some of those above were created before, and what could not be created after a step cannot be
created at once either. While a directory is missing, there is nothing at the paths inside of it.
-/

namespace CommitCoordinator.Storage

open FileTree FailingMachine

/-! ## Paths inside of directories -/

/-- Whether a path begins with that of a directory and names something in it or further below. -/
def IsInside (dir path : String) : Prop :=
  dir.length < path.length ∧ (dir = "" ∨ dir = "/" ∨ dir ≠ "" ∧
    ∃ more, path.toList = dir.toList ++ '/' :: more ∧ ∃ part ∈ splitPath more, part ≠ [])

variable {dir path other : String}

namespace IsInside

theorem trans (h : IsInside dir path) (h' : IsInside path other) : IsInside dir other := by
  obtain ⟨hlength, hdir⟩ := h
  obtain ⟨hlength', hpath⟩ := h'
  refine ⟨hlength.trans hlength', ?_⟩
  rcases hdir with hempty | hroot | ⟨hne, more, hmore, -⟩
  · exact .inl hempty
  · exact .inr (.inl hroot)
  rcases hpath with rfl | rfl | ⟨-, more', hmore', part, hpart, hname⟩
  · exact absurd hlength (Nat.not_lt_zero _)
  · have hempty : dir.length = 0 := Nat.lt_one_iff.1 hlength
    exact .inl (String.length_eq_zero_iff.1 hempty)
  · refine .inr (.inr ⟨hne, more ++ '/' :: more', ?_, part, ?_, hname⟩)
    · rw [hmore', hmore, List.append_assoc, List.cons_append]
    · rw [splitPath_append_slash]
      exact List.mem_append_right _ hpart

/-- A path starts where the paths of the directories above it do. -/
theorem pathParts (h : dir ≠ "")
    (hpath : ∃ more, path.toList = dir.toList ++ '/' :: more ∧ ∃ part ∈ splitPath more, part ≠ []) :
    isAbsolute path = isAbsolute dir ∧
      ∃ more, FileTree.pathParts path = FileTree.pathParts dir ++ more ∧ Deeper more := by
  obtain ⟨more, hmore, part, hpart, hname⟩ := hpath
  have hdir : dir.toList ≠ [] := fun hnil ↦ h (String.toList_eq_nil_iff.1 hnil)
  refine ⟨?_, (splitPath more).map String.ofList, ?_, String.ofList part, ?_, ?_⟩
  · rw [isAbsolute, isAbsolute, hmore, List.head?_append_of_ne_nil _ hdir]
  · rw [FileTree.pathParts, FileTree.pathParts, hmore, splitPath_append_slash, List.map_append]
  · exact List.mem_map_of_mem hpart
  · rintro hempty
    apply hname
    rw [← @String.toList_ofList part, hempty]
    rfl

/-- What holds of a path as such also holds of the directories above it. -/
theorem usable (h : IsInside dir path) (hdir : dir ≠ "") (husable : Usable path) : Usable dir := by
  obtain ⟨hnul, -, hlength⟩ := husable
  have hempty : ¬dir.isEmpty := fun hempty ↦ hdir (String.isEmpty_iff.1 hempty)
  rcases h.2 with rfl | rfl | ⟨-, more, hmore, -⟩
  · exact absurd rfl hdir
  · decide
  · have hpath : path = dir ++ String.ofList ('/' :: more) := by
      apply String.toList_injective
      rw [hmore, String.toList_append, String.toList_ofList]
    refine ⟨fun hmem ↦ hnul ?_, hempty, fun hlong ↦ hlength ?_⟩
    · rw [hmore, List.contains_iff_mem, List.mem_append]
      exact .inl (List.contains_iff_mem.1 hmem)
    · rw [hpath, String.utf8ByteSize_append]
      exact hlong.trans (Nat.le_add_right _ _)

end IsInside

theorem joinParts_append {front back : List (List Char)} (hfront : front ≠ []) (hback : back ≠ []) :
    joinParts (front ++ back) = joinParts front ++ '/' :: joinParts back := by
  induction front with
  | nil => exact absurd rfl hfront
  | cons part rest ih =>
    cases rest with
    | nil =>
      obtain ⟨next, back, rfl⟩ := List.exists_cons_of_ne_nil hback
      rfl
    | cons second rest =>
      change part ++ '/' :: joinParts (second :: rest ++ back) = _
      rw [ih (List.cons_ne_nil second rest), ← List.cons_append, ← List.append_assoc]
      rfl

/-- What is left after the last parts are dropped ends in one that names something. -/
theorem dropIdle_last {parts front : List (List Char)} {part : List Char}
    (h : dropIdle parts = front ++ [part]) : part ≠ [] := by
  rintro rfl
  have hreverse : parts.reverse.dropWhile isIdlePart = [] :: front.reverse := by
    rw [← List.reverse_reverse (parts.reverse.dropWhile isIdlePart)]
    change (dropIdle parts).reverse = _
    rw [h, List.reverse_append]
    rfl
  have hhead := List.head?_dropWhile_not isIdlePart parts.reverse
  rw [hreverse] at hhead
  cases hhead

/-- The parts that are left in front of the last one that names something. -/
theorem exists_more_of_dropIdle {parts : List (List Char)} (h : dropIdle parts ≠ []) :
    ∃ more, parts = dropIdle (dropIdle parts).dropLast ++ more ∧ ∃ part ∈ more, part ≠ [] := by
  obtain ⟨front, last, hlast⟩ := (List.eq_nil_or_concat' (dropIdle parts)).resolve_left h
  obtain ⟨idle, hidle⟩ := dropIdle_front front
  obtain ⟨idle', hidle'⟩ := dropIdle_front parts
  refine ⟨idle ++ last :: idle', ?_, last, by simp, dropIdle_last hlast⟩
  rw [hlast, List.dropLast_concat, ← List.append_assoc, hidle, List.append_cons, ← hlast, hidle']

/-- A path names something in its directory. -/
theorem isInside_of_parent? {parent : String} (h : parent? path = some parent) :
    IsInside parent path := by
  obtain ⟨head, tail, hparts⟩ := List.exists_cons_of_ne_nil (splitPath_ne_nil path.toList)
  have hpartsOf : partsOf path = (head, dropIdle tail) := by rw [partsOf, hparts]
  rw [parent?, hpartsOf] at h
  dsimp only at h
  split at h
  · split at h
    · cases h
    · next hhead =>
      cases h
      refine ⟨Nat.pos_of_ne_zero fun hzero ↦ hhead ?_, .inl rfl⟩
      obtain rfl := String.length_eq_zero_iff.1 hzero
      cases hparts
      rfl
  · next htail =>
    obtain ⟨more, hmore, part, hpart, hname⟩ := exists_more_of_dropIdle htail
    have hne : more ≠ [] := List.ne_nil_of_mem hpart
    generalize dropIdle (dropIdle tail).dropLast = rest at h hmore
    have hpath : path.toList = joinParts (head :: rest) ++ '/' :: joinParts more := by
      rw [← joinParts_append (List.cons_ne_nil head rest) hne, List.cons_append, ← hmore, ← hparts,
        joinParts_splitPath]
    have hsplit : splitPath (joinParts more) = more := by
      refine splitPath_joinParts hne fun other hother ↦ ?_
      have hmem : other ∈ splitPath path.toList := by
        rw [hparts, hmore]
        exact List.mem_cons_of_mem _ (List.mem_append_right rest hother)
      exact slash_not_mem_splitPath hmem
    have hlong : joinParts more ≠ [] := by
      intro hnil
      rw [hnil] at hsplit
      rw [← hsplit] at hpart
      exact hname (List.mem_singleton.1 hpart)
    have hlength := congrArg List.length hpath
    rw [String.length_toList, List.length_append, List.length_cons] at hlength
    have hpos := List.length_pos_iff.2 hlong
    obtain rfl := Option.some.inj h
    split
    · refine ⟨?_, .inr (.inl rfl)⟩
      rw [String.length_ofList, List.length_singleton]
      omega
    · next hroot =>
      refine ⟨?_, .inr (.inr ⟨?_, joinParts more, ?_, part, hsplit.symm ▸ hpart, hname⟩)⟩
      · rw [String.length_ofList]
        omega
      · intro hempty
        have hnil := congrArg String.toList hempty
        rw [String.toList_ofList] at hnil
        cases rest <;> simp_all [joinParts]
      · rw [String.toList_ofList, hpath]

namespace FileTree

variable {tree made : FileTree} {followLast : Bool} {place : Place}

/-! ## Directories that are there -/

theorem isDirAt_of_passes {links : Nat} {home : Route} (husable : Usable path)
    (h : tree.Passes (tree.setOut path) ⟨links, home, []⟩) : tree.isDirAt path := by
  have hwalk := h.walk_eq true [] (.inl rfl)
  rw [List.append_nil, List.append_nil, walk.eq_def tree true links] at hwalk
  have hresolve : tree.resolve true path = .ok (.found home .dir) :=
    (resolve_of_usable husable).trans hwalk
  rw [isDirAt, hresolve]

theorem passes_of_isDirAt (h : tree.isDirAt path) :
    Usable path ∧ ∃ links home, tree.Passes (tree.setOut path) ⟨links, home, []⟩ := by
  obtain ⟨home, hresolve⟩ := isDirAt_eq_true h
  have husable := usable_of_resolve hresolve
  rw [resolve_of_usable husable] at hresolve
  obtain ⟨left, hway⟩ := passes_of_walk hresolve
  exact ⟨husable, left, home, hway⟩

/-- A directory is found, if only as a link to it. -/
theorem resolve_of_isDirAt (h : tree.isDirAt path) (followLast : Bool) :
    ∃ route node, tree.resolve followLast path = .ok (.found route node) := by
  obtain ⟨husable, links, home, hway⟩ := passes_of_isDirAt h
  rw [resolve_of_usable husable]
  exact Passes.walk_arrived hway rfl followLast

theorem isDirAt_root (tree : FileTree) : tree.isDirAt "/" := by
  have hparts : pathParts "/" = ["", ""] := by decide
  have hresolve : tree.resolve true "/" = .ok (.found [] .dir) := by
    rw [resolve_of_usable (by decide), hparts, walk, if_pos (.inl rfl), walk,
      if_pos (.inl rfl), walk]
    rfl
  rw [isDirAt, hresolve]

/-! ## What there is inside of a directory -/

/-- A directory is there, or everything inside of it fails for the same reason. -/
theorem resolve_inside (tree : FileTree) (h : IsInside dir path) (hdir : dir ≠ "")
    (husable : Usable path) :
    tree.isDirAt dir ∨ ∃ cause, (∀ followLast, tree.resolve followLast path = .error cause) ∧
      (cause = .notFound ∨ ∀ followLast,
        (∃ route node, tree.resolve followLast dir = .ok (.found route node)) ∨
        tree.resolve followLast dir = .error cause) := by
  have husable' := h.usable hdir husable
  rcases h.2 with hempty | rfl | ⟨-, hpath⟩
  · exact absurd hempty hdir
  · exact .inl tree.isDirAt_root
  · obtain ⟨habsolute, more, hparts, hmore⟩ := IsInside.pathParts hdir hpath
    have hstart : tree.start path = tree.start dir := by rw [start, start, habsolute]
    simp only [resolve_of_usable husable, resolve_of_usable husable', hparts, hstart]
    refine (tree.walk_append maxLinks (tree.start dir) (pathParts dir) hmore).imp_left ?_
    rintro ⟨links, home, hway⟩
    exact isDirAt_of_passes husable' hway

/-- Only inside of a directory that is there do paths lead somewhere. -/
theorem isDirAt_of_resolve (h : IsInside dir path)
    (hplace : tree.resolve followLast path = .ok place) : dir = "" ∨ tree.isDirAt dir := by
  refine or_iff_not_imp_left.2 fun hdir ↦ ?_
  rcases tree.resolve_inside h hdir (usable_of_resolve hplace) with hat | ⟨cause, hcause, -⟩
  · exact hat
  · cases (hcause followLast).symm.trans hplace

theorem isDirAt_of_isInside (h : IsInside dir path) (hpath : tree.isDirAt path) :
    dir = "" ∨ tree.isDirAt dir := by
  obtain ⟨home, hresolve⟩ := isDirAt_eq_true hpath
  exact isDirAt_of_resolve h hresolve

/-- Nothing is inside of a directory that could be created or whose own directory is missing. -/
theorem resolve_missing (h : IsInside dir path) (hdir : dir ≠ "") (husable : Usable path)
    (hmissing : tree.createDir dir = .error .notFound ∨ ∃ made, tree.createDir dir = .ok made)
    (followLast : Bool) : tree.resolve followLast path = .error .notFound := by
  have hnot : ∀ route node, tree.resolve false dir ≠ .ok (.found route node) := by
    intro route node hfound
    rw [createDir, hfound] at hmissing
    simp at hmissing
  rcases tree.resolve_inside h hdir husable with hat | ⟨cause, hcause, hnotFound | hdir'⟩
  · obtain ⟨route, node, hfound⟩ := resolve_of_isDirAt hat false
    exact absurd hfound (hnot route node)
  · rw [hcause, hnotFound]
  · rcases hdir' false with ⟨route, node, hfound⟩ | herror
    · exact absurd hfound (hnot route node)
    · rw [createDir, herror] at hmissing
      rw [hcause]
      rcases hmissing with hmissing | ⟨made, hmade⟩
      · exact congrArg Except.error (Except.error.inj hmissing)
      · cases hmade

/-! ## Creating one directory -/

theorem createDir_of_isDirAt (h : tree.isDirAt path) :
    tree.createDir path = .error .fileExists := by
  obtain ⟨route, node, hfound⟩ := resolve_of_isDirAt h false
  rw [createDir, hfound]

/-- Directories and links remain where something comes into a place that was empty or a file's. -/
theorem Passes.insertNode {stop next : Stop} {route : Route} (node : Node)
    (hroute : ∀ old, tree.node? route = some old → ∃ content, old = .file content)
    (h : tree.Passes stop next) : (tree.insertNode route node).Passes stop next := by
  refine h.mono fun other old hold hfile ↦ ?_
  rw [node?_insertNode_of_ne, hold]
  rintro rfl
  obtain ⟨content, rfl⟩ := hroute old hold
  exact hfile content rfl

theorem passes_empty {links : Nat} {here : Route} {rest : List String}
    (h : rest.all (· = "")) : tree.Passes ⟨links, here, rest⟩ ⟨links, here, []⟩ := by
  induction rest with
  | nil => exact .refl
  | cons part rest ih =>
    obtain ⟨hpart, hrest⟩ := List.all_cons.symm.trans h |> Bool.and_eq_true_iff.1
    exact .head (.idle (.inl (of_decide_eq_true hpart))) (ih hrest)

theorem isDirAt_of_createDir (h : tree.createDir path = .ok made) : made.isDirAt path := by
  obtain ⟨route, slash, hresolve, rfl⟩ := createDir_eq_ok h
  have husable := usable_of_resolve hresolve
  rw [resolve_of_usable husable] at hresolve
  obtain ⟨next, hway, hlands⟩ := exists_lands hresolve
  cases hlands with
  | @vacant links here part rest hname hnode hrest =>
    have hmade := node?_insertNode_self tree (List.concat_ne_nil part here) .dir
    have hway := hway.insertNode .dir fun old hold ↦ nomatch hnode.symm.trans hold
    exact isDirAt_of_passes husable ((hway.tail (.down hname hmade)).trans (passes_empty hrest))

/-! ## Creating all of them -/

theorem createDirsWithin_eq {fuel fuel' : Nat} (h : path.length < fuel)
    (h' : path.length < fuel') : tree.createDirsWithin path fuel =
      tree.createDirsWithin path fuel' := by
  induction fuel generalizing tree path fuel' with
  | zero => exact absurd h (Nat.not_lt_zero _)
  | succ fuel ih =>
    obtain ⟨fuel', rfl⟩ := Nat.exists_eq_succ_of_ne_zero (Nat.ne_zero_of_lt h')
    rw [createDirsWithin, createDirsWithin]
    cases hparent : parent? path with
    | none => rfl
    | some parent =>
      have hlength := (isInside_of_parent? hparent).1
      have hsame : tree.createDirsWithin parent fuel = tree.createDirsWithin parent fuel' :=
        ih (by omega) (by omega)
      dsimp only
      rw [hsame]

/-- Creates the last directory of a path, which may be there. -/
def createLast (tree : FileTree) (path : String) : FileTree × Except OsError Unit :=
  match tree.createDir path with
  | .ok made => (made, .ok ())
  | .error e => (tree, if tree.isDirAt path then .ok () else .error e)

theorem createDirsTo_empty (tree : FileTree) : tree.createDirsTo "" = (tree, .ok ()) := by
  rw [createDirsTo, createDirsWithin, if_pos (String.isEmpty_iff.2 rfl)]

/-- Nothing above is created unless a directory on the way is missing. -/
theorem createDirsTo_of_ne (hpath : path ≠ "") (h : tree.createDir path ≠ .error .notFound) :
    tree.createDirsTo path = tree.createLast path := by
  have hempty : ¬path.isEmpty := fun hempty ↦ hpath (String.isEmpty_iff.1 hempty)
  rw [createDirsTo, createDirsWithin, if_neg hempty, createLast]
  cases hcreate : tree.createDir path with
  | ok made => rfl
  | error cause => cases cause <;> first | rfl | exact absurd hcreate h

theorem createDirsTo_of_missing {parent : String} (h : tree.createDir path = .error .notFound)
    (hparent : parent? path = some parent) :
    tree.createDirsTo path =
      match tree.createDirsTo parent with
      | (above, .error e) => (above, .error e)
      | (above, .ok ()) => above.createLast path := by
  have hinside := isInside_of_parent? hparent
  have hempty : ¬path.isEmpty := by
    intro hempty
    rw [String.isEmpty_iff.1 hempty] at hinside
    exact absurd hinside.1 (Nat.not_lt_zero _)
  have hfuel : tree.createDirsWithin parent path.length = tree.createDirsTo parent :=
    createDirsWithin_eq hinside.1 (Nat.lt_succ_self _)
  rw [createDirsTo, createDirsWithin, if_neg hempty, h]
  dsimp only
  rw [hparent]
  dsimp only
  rw [hfuel]
  rfl

theorem isDirAt_of_createLast (h : tree.createLast path = (made, .ok ())) :
    made.isDirAt path := by
  unfold createLast at h
  split at h
  · next hcreate =>
    cases h
    exact isDirAt_of_createDir hcreate
  · split at h
    · next hdir =>
      cases h
      exact hdir
    · cases h

/-- Directories that are there need not be created. -/
theorem createDirsTo_of_isDirAt (h : path = "" ∨ tree.isDirAt path) :
    tree.createDirsTo path = (tree, .ok ()) := by
  by_cases hpath : path = ""
  · rw [hpath, createDirsTo_empty]
  · have hdir := h.resolve_left hpath
    have hcreate := createDir_of_isDirAt hdir
    rw [createDirsTo_of_ne hpath (by simp [hcreate]), createLast, hcreate]
    exact congrArg (Prod.mk tree) (if_pos hdir)

/-- Nothing is created above a path unless something is missing on the way to it. -/
theorem createDirsTo_fst_of_ne (h : IsInside dir path) (husable : Usable path)
    (hcreate : tree.createDir path ≠ .error .notFound) : (tree.createDirsTo dir).1 = tree := by
  by_cases hdir : dir = ""
  · rw [hdir, createDirsTo_empty]
  have hnot : ¬(tree.createDir dir = .error .notFound ∨ ∃ made, tree.createDir dir = .ok made) := by
    intro hmissing
    apply hcreate
    rw [createDir, resolve_missing h hdir husable hmissing]
  rw [not_or] at hnot
  rw [createDirsTo_of_ne hdir hnot.1, createLast]
  split
  · next made hmade => exact absurd ⟨made, hmade⟩ hnot.2
  · rfl

/-- Where directories can be created, there is nothing inside of them. -/
theorem createDirsTo_fst_or (h : IsInside dir path) (husable : Usable path) :
    (tree.createDirsTo dir).1 = tree ∨
      ∀ followLast, tree.resolve followLast path = .error .notFound := by
  by_cases hdir : dir = ""
  · exact .inl (by rw [hdir, createDirsTo_empty])
  by_cases hmissing : tree.createDir dir = .error .notFound
  · exact .inr (resolve_missing h hdir husable (.inl hmissing))
  rw [createDirsTo_of_ne hdir hmissing]
  unfold createLast
  split
  · next made hmade => exact .inr (resolve_missing h hdir husable (.inr ⟨made, hmade⟩))
  · exact .inl rfl

/-! ### One directory after another -/

section Parents

variable {above between : FileTree} {parent : String} {result : Except OsError Unit}

/-- Once its directory is there, only the last directory of a path is left to be created. -/
theorem createDirsTo_of_parent (hparent : parent? path = some parent) (husable : Usable path)
    (habove : tree.createDirsTo parent = (above, .ok ())) :
    tree.createDirsTo path = above.createLast path := by
  have hinside := isInside_of_parent? hparent
  by_cases hcreate : tree.createDir path = .error .notFound
  · rw [createDirsTo_of_missing hcreate hparent, habove]
  · have hpath : path ≠ "" := by
      rintro rfl
      exact absurd hinside.1 (Nat.not_lt_zero _)
    obtain rfl : above = tree := by
      rw [← createDirsTo_fst_of_ne hinside husable hcreate, habove]
    exact createDirsTo_of_ne hpath hcreate

/-- Who created the directories of a path has created those of its directory before. -/
theorem exists_createDirsTo_parent (hparent : parent? path = some parent)
    (h : tree.createDirsTo path = (made, .ok ())) :
    ∃ above, tree.createDirsTo parent = (above, .ok ()) ∧
      above.createLast path = (made, .ok ()) := by
  have hinside := isInside_of_parent? hparent
  by_cases hcreate : tree.createDir path = .error .notFound
  · rw [createDirsTo_of_missing hcreate hparent] at h
    split at h
    · cases h
    · next above habove => exact ⟨above, habove, h⟩
  · have hpath : path ≠ "" := by
      rintro rfl
      exact absurd hinside.1 (Nat.not_lt_zero _)
    rw [createDirsTo_of_ne hpath hcreate] at h
    refine ⟨tree, createDirsTo_of_isDirAt ?_, h⟩
    unfold createLast at h
    split at h
    · next hmade =>
      obtain ⟨route, slash, hresolve, -⟩ := createDir_eq_ok hmade
      exact isDirAt_of_resolve hinside hresolve
    · split at h
      · next hdir => exact isDirAt_of_isInside hinside hdir
      · cases h

theorem isDirAt_of_createDirsTo (h : tree.createDirsTo path = (made, .ok ())) :
    path = "" ∨ made.isDirAt path := by
  refine or_iff_not_imp_left.2 fun hpath ↦ ?_
  by_cases hcreate : tree.createDir path = .error .notFound
  · cases hparent : parent? path with
    | none =>
      have hempty : ¬path.isEmpty := fun hempty ↦ hpath (String.isEmpty_iff.1 hempty)
      rw [createDirsTo, createDirsWithin, if_neg hempty, hcreate] at h
      dsimp only at h
      rw [hparent] at h
      cases h
    | some parent =>
      obtain ⟨above, -, hlast⟩ := exists_createDirsTo_parent hparent h
      exact isDirAt_of_createLast hlast
  · rw [createDirsTo_of_ne hpath hcreate] at h
    exact isDirAt_of_createLast h

/-- Who creates nothing on the way to a path creates nothing on the way to its directory. -/
theorem createDirsTo_parent_fst (hparent : parent? path = some parent) (husable : Usable path)
    (h : (tree.createDirsTo path).1 = tree) : (tree.createDirsTo parent).1 = tree := by
  by_cases hcreate : tree.createDir path = .error .notFound
  · rw [createDirsTo_of_missing hcreate hparent] at h
    split at h
    · next habove => rw [habove, ← h]
    · next above habove =>
      rw [habove]
      unfold createLast at h
      split at h
      · next hmade =>
        subst h
        cases hcreate.symm.trans (createDir_of_isDirAt (isDirAt_of_createDir hmade))
      · exact h
  · exact createDirsTo_fst_of_ne (isInside_of_parent? hparent) husable hcreate

end Parents

/-! ### Ancestors -/

theorem ancestor?_succ (path : String) (levels : Nat) :
    ancestor? path (levels + 1) = (parent? path).bind (ancestor? · levels) := by
  induction levels with
  | zero => cases h : parent? path <;> simp [ancestor?, h]
  | succ levels ih =>
    rw [ancestor?, ih]
    cases parent? path <;> rfl

theorem isInside_of_ancestor? {above : String} {levels : Nat}
    (h : ancestor? path levels = some above) : above = path ∨ IsInside above path := by
  induction levels generalizing above with
  | zero => exact .inl (Option.some.inj h).symm
  | succ levels ih =>
    obtain ⟨between, hbetween, hparent⟩ := Option.bind_eq_some_iff.1 h
    have hinside := isInside_of_parent? hparent
    rcases ih hbetween with rfl | hpath
    · exact .inr hinside
    · exact .inr (hinside.trans hpath)

/-- It does not matter whether some of the directories were created before. -/
theorem createDirsTo_ancestor {above : String} {levels : Nat}
    (habove : ancestor? path levels = some above) (h : tree.createDirsTo path = (made, .ok ())) :
    (tree.createDirsTo above).1.createDirsTo path = (made, .ok ()) := by
  induction levels generalizing path made with
  | zero =>
    obtain rfl := Option.some.inj habove
    rw [h]
    exact createDirsTo_of_isDirAt (isDirAt_of_createDirsTo h)
  | succ levels ih =>
    rw [ancestor?_succ] at habove
    obtain ⟨parent, hparent, habove⟩ := Option.bind_eq_some_iff.1 habove
    obtain ⟨between, hbetween, hlast⟩ := exists_createDirsTo_parent hparent h
    have hdir := isDirAt_of_createLast hlast
    rw [createDirsTo_of_parent hparent (passes_of_isDirAt hdir).1 (ih habove hbetween), hlast]

/-- Who creates nothing on the way to a path creates nothing on the way to those above. -/
theorem createDirsTo_ancestor_fst {above : String} {levels : Nat} (husable : Usable path)
    (habove : ancestor? path levels = some above) (h : (tree.createDirsTo path).1 = tree) :
    (tree.createDirsTo above).1 = tree := by
  induction levels generalizing above with
  | zero =>
    obtain rfl := Option.some.inj habove
    exact h
  | succ levels ih =>
    obtain ⟨between, hbetween, hparent⟩ := Option.bind_eq_some_iff.1 habove
    refine createDirsTo_parent_fst hparent ?_ (ih hbetween)
    rcases isInside_of_ancestor? hbetween with rfl | hpath
    · exact husable
    · refine hpath.usable ?_ husable
      rintro rfl
      cases hparent

end FileTree

end CommitCoordinator.Storage
