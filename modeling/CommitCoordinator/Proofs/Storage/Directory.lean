import CommitCoordinator.Proofs.Storage.EntryPaths
import CommitCoordinator.Proofs.Storage.Hosting
import CommitCoordinator.Proofs.Storage.Walking
import Mathlib.Logic.Function.Basic

/-!
# A directory that holds files and nothing else

What can be seen of such a directory is which files it holds. It may also be missing together with
directories above it, and then it holds none. Reading, writing and moving files in it and creating
it amounts to the same operations on a map of names.
-/

namespace CommitCoordinator.Storage

namespace FileTree

/-- Where the walk along a path begins. -/
def setOut (tree : FileTree) (path : String) : Stop :=
  ⟨maxLinks, tree.start path, pathParts path⟩

/-- Whether a path leads to a directory that holds some files and nothing else. -/
structure InPlace (tree : FileTree) (dir : String) (home : Route)
    (files : String → Option Content) : Prop where
  way : ∃ links, tree.Passes (tree.setOut dir) ⟨links, home, []⟩
  node : ∀ name, tree.node? (home ++ [name]) = (files name).map .file

/-- Whether a path leads to a directory that is missing and can be created. -/
def Missing (tree : FileTree) (dir : String) : Prop :=
  ∃ links here part rest, tree.Passes (tree.setOut dir) ⟨links, here, part :: rest⟩ ∧
    IsName part ∧ (∀ other ∈ rest, other = "" ∨ other = "." ∨ IsName other) ∧
    ∀ below, tree.node? (here ++ part :: below) = none

/-- The files that a directory holds, where a missing directory holds none. -/
inductive Holds (tree : FileTree) (dir : String) : (String → Option Content) → Prop where
  | present {home : Route} {files : String → Option Content}
      (h : tree.InPlace dir home files) : Holds tree dir files
  | absent (h : tree.Missing dir) : Holds tree dir fun _ ↦ none

/-- Whether a directory is empty or missing. -/
def Unused (tree : FileTree) (dir : String) : Prop :=
  tree.Holds dir fun _ ↦ none

variable {tree changed : FileTree} {dir name path : String} {home : Route}
  {files : String → Option Content} {content : Content}

/-! ## Where paths lead -/

theorem walk_of_isEntry (h : IsEntry dir name path) (hname : name ≠ "") (followLast : Bool) :
    tree.walk followLast maxLinks (tree.start path) (pathParts path) =
      tree.walk followLast maxLinks (tree.start dir) (pathParts dir ++ [name]) := by
  obtain ⟨front, hparts, hdir⟩ := h.parts
  have hstart : tree.start path = tree.start dir := by rw [start, start, h.absolute]
  have hpath : pathParts path = front.map String.ofList ++ [name] := by
    rw [pathParts, hparts, List.map_append, List.map_singleton, String.ofList_toList]
  rw [hstart, hpath]
  rcases hdir with hdir | hdir
  · rw [pathParts, hdir]
  · have hdir : pathParts dir = front.map String.ofList ++ [""] := by
      rw [pathParts, hdir, List.map_append]
      rfl
    rw [hdir, List.append_assoc]
    exact (walk_skip_empty hname).symm

theorem not_dots_of_isFileName (h : IsFileName name.toList) :
    ¬(name = "" ∨ name = ".") ∧ name ≠ ".." := by
  have hdots := h.not_dots
  simp only [isDots, Bool.or_eq_false_iff, decide_eq_false_iff_not] at hdots
  refine ⟨?_, ?_⟩
  · rintro (rfl | rfl)
    · exact h.ne_nil rfl
    · exact hdots.1 rfl
  · rintro rfl
    exact hdots.2 rfl

theorem InPlace.resolve (h : tree.InPlace dir home files) (hentry : IsEntry dir name path)
    (hname : IsFileName name.toList) (husable : Usable path) (followLast : Bool) :
    tree.resolve followLast path =
      if maxPartLength < name.utf8ByteSize then .error .nameTooLong
      else .ok (tree.placeAt (home ++ [name])) := by
  obtain ⟨links, hway⟩ := h.way
  obtain ⟨hidle, hup⟩ := not_dots_of_isFileName hname
  have hne : name ≠ "" := fun hempty ↦ hidle (.inl hempty)
  rw [resolve_of_usable husable, walk_of_isEntry hentry hne]
  have hwalk := hway.walk_eq followLast [name] (.inr nofun)
  refine hwalk.trans ?_
  split
  · next hlength =>
    change tree.walk followLast links home [name] = _
    rw [walk, if_neg hidle, if_neg hup, if_pos hlength]
  · next hlength =>
    have hpart : IsName name := ⟨hidle, hup, Nat.not_lt.1 hlength⟩
    change tree.walk followLast links home [name] = _
    rw [placeAt]
    have hnode := h.node name
    cases hfile : files name with
    | none =>
      rw [hfile, Option.map_none] at hnode
      rw [hpart.walk_nothing hnode, hnode]
      rfl
    | some content =>
      rw [hfile, Option.map_some] at hnode
      rw [hpart.walk_file hnode, hnode]

theorem Missing.resolve (h : tree.Missing dir) (hentry : IsEntry dir name path)
    (hname : IsFileName name.toList) (husable : Usable path) (followLast : Bool) :
    tree.resolve followLast path = .error .notFound := by
  obtain ⟨links, here, part, rest, hway, hpart, -, hnothing⟩ := h
  obtain ⟨hidle, hup⟩ := not_dots_of_isFileName hname
  have hne : name ≠ "" := fun hempty ↦ hidle (.inl hempty)
  rw [resolve_of_usable husable, walk_of_isEntry hentry hne]
  have hwalk := hway.walk_eq followLast [name] (.inr nofun)
  refine hwalk.trans ?_
  have hall : ¬(rest ++ [name]).all (· = "") := by simp [hne]
  exact (hpart.walk_nothing (hnothing [])).trans (if_neg hall)

theorem InPlace.place_eq (h : tree.InPlace dir home files) (hentry : IsEntry dir name path)
    (hname : IsFileName name.toList) {followLast : Bool} {place : Place}
    (hplace : tree.resolve followLast path = .ok place) :
    place = tree.placeAt (home ++ [name]) := by
  rw [h.resolve hentry hname (usable_of_resolve hplace)] at hplace
  split at hplace
  · cases hplace
  · exact (Except.ok.inj hplace).symm

/-- Only into a directory that is in place do paths lead. -/
theorem Holds.inPlace_of_resolve (h : tree.Holds dir files) (hentry : IsEntry dir name path)
    (hname : IsFileName name.toList) {followLast : Bool} {place : Place}
    (hplace : tree.resolve followLast path = .ok place) : ∃ home, tree.InPlace dir home files := by
  cases h with
  | present h => exact ⟨_, h⟩
  | absent h => cases (h.resolve hentry hname (usable_of_resolve hplace) _).symm.trans hplace

/-! ## Reading -/

theorem Holds.read (h : tree.Holds dir files) (hentry : IsEntry dir name path)
    (hname : IsFileName name.toList) (husable : Usable path)
    (hlength : name.utf8ByteSize ≤ maxPartLength) :
    tree.read path =
      match files name with
      | some content => .ok content.toList
      | none => .error .notFound := by
  cases h with
  | present h =>
    rw [FileTree.read, h.resolve hentry hname husable, if_neg (Nat.not_lt.2 hlength), placeAt,
      h.node name]
    cases files name <;> rfl
  | absent h => rw [FileTree.read, h.resolve hentry hname husable]

/-! ## Creating the directory -/

/-- A directory is missing or empty if nothing is below the last one on the way to it. -/
theorem unused_of_nothing {links : Nat} {here : Route} {rest : List String}
    (hway : tree.Passes (tree.setOut dir) ⟨links, here, rest⟩)
    (hrest : ∀ other ∈ rest, other = "" ∨ other = "." ∨ IsName other)
    (hnothing : ∀ part below, tree.node? (here ++ part :: below) = none) : tree.Unused dir := by
  induction rest with
  | nil => exact .present ⟨⟨links, hway⟩, fun name ↦ hnothing name []⟩
  | cons part rest ih =>
    have hlater : ∀ other ∈ rest, other = "" ∨ other = "." ∨ IsName other :=
      fun other hother ↦ hrest other (List.mem_cons_of_mem part hother)
    have hidle (hpart : part = "" ∨ part = ".") : tree.Unused dir :=
      ih (hway.tail (.idle hpart)) hlater
    rcases hrest part List.mem_cons_self with hempty | hdot | hname
    · exact hidle (.inl hempty)
    · exact hidle (.inr hdot)
    · exact .absent ⟨links, here, part, rest, hway, hname, hlater, hnothing part⟩

/-- A path above a directory leads to what is there, or where the walk to the directory comes by. -/
theorem walk_of_isAbove {stop : Stop} (hway : tree.Passes (tree.setOut dir) stop)
    (habove : IsAbove dir path) {followLast : Bool} {route : Route} {slash : Bool}
    (hvacant : tree.resolve followLast path = .ok (.vacant route slash)) :
    ∃ left more, stop.parts = left ++ more ∧
      tree.walk followLast stop.links stop.here left = .ok (.vacant route slash) := by
  have husable := usable_of_resolve hvacant
  rw [resolve_of_usable husable] at hvacant
  rcases habove with rfl | rfl | ⟨habsolute, more, hparts⟩
  · exact absurd rfl husable.2.1
  · have hroot : pathParts "/" = ["", ""] := by decide +kernel
    rw [hroot, walk, if_pos (.inl rfl), walk, if_pos (.inl rfl), walk] at hvacant
    cases hvacant
  · have hdir : pathParts dir = pathParts path ++ more.map String.ofList := by
      rw [pathParts, pathParts, ← hparts, List.map_append]
    have hstart : tree.start path = tree.start dir := by rw [start, start, habsolute]
    rw [hstart] at hvacant
    rw [setOut, hdir] at hway
    rcases hway.walk_front followLast with ⟨route, node, hfound⟩ | ⟨left, hleft, hwalk⟩
    · cases hfound.symm.trans hvacant
    · exact ⟨left, _, hleft, hwalk.symm.trans hvacant⟩

theorem createDir_eq_ok (h : tree.createDir path = .ok changed) :
    ∃ route slash, tree.resolve false path = .ok (.vacant route slash) ∧
      changed = tree.insertNode route .dir := by
  unfold FileTree.createDir at h
  split at h
  · cases h
  · cases h
  · next route slash hresolve =>
    cases h
    exact ⟨route, slash, hresolve, rfl⟩

/-- Only the first directory that is missing on the way can be created. -/
theorem Holds.createDir (h : tree.Holds dir files) (habove : IsAbove dir path)
    (hcreate : tree.createDir path = .ok changed) : changed.Holds dir files := by
  obtain ⟨route, slash, hresolve, rfl⟩ := createDir_eq_ok hcreate
  cases h with
  | present h =>
    obtain ⟨links, hway⟩ := h.way
    obtain ⟨left, more, hleft, hwalk⟩ := walk_of_isAbove hway habove hresolve
    obtain ⟨rfl, -⟩ := List.append_eq_nil_iff.1 hleft.symm
    rw [walk] at hwalk
    cases hwalk
  | absent h =>
    obtain ⟨links, here, part, rest, hway, hname, hrest, hnothing⟩ := h
    obtain ⟨left, more, hleft, hwalk⟩ := walk_of_isAbove hway habove hresolve
    cases left with
    | nil =>
      rw [walk] at hwalk
      cases hwalk
    | cons first left =>
      obtain ⟨rfl, -⟩ := List.cons.inj hleft
      have hroute : route = here ++ [part] := by
        rw [hname.walk_nothing (hnothing [])] at hwalk
        split at hwalk
        · cases hwalk
          rfl
        · cases hwalk
      subst hroute
      have hroot : here ++ [part] ≠ [] := by simp
      have hkept (route : Route) (node : Node) (hnode : tree.node? route = some node)
          (_ : ∀ content, node ≠ .file content) :
          (tree.insertNode (here ++ [part]) .dir).node? route = some node := by
        rw [node?_insertNode_of_ne, hnode]
        rintro rfl
        cases hnode.symm.trans (hnothing [])
      have hmade := node?_insertNode_self tree hroot .dir
      apply unused_of_nothing ((hway.mono hkept).tail (.down hname hmade)) hrest
      intro next below
      rw [node?_insertNode_of_ne tree (by simp), List.append_assoc]
      exact hnothing (next :: below)

theorem Holds.createDirsTo (h : tree.Holds dir files) (habove : IsAbove dir path) :
    (tree.createDirsTo path).1.Holds dir files := by
  unfold FileTree.createDirsTo
  apply createDirsWithin_induction (motive := fun tree ↦ tree.Holds dir files) (IsAbove dir) _ _ h
    habove
  · intro path parent hpath hparent
    exact hpath.parent hparent
  · intro tree changed path htree hpath hcreate
    exact htree.createDir hpath hcreate

/-! ## Changing files -/

/-- A change of files in a directory leaves the directory in place. -/
theorem InPlace.of_change (h : tree.InPlace dir home files)
    (hstart : changed.workingDir = tree.workingDir) {files' : String → Option Content}
    (helse : ∀ route, (∀ name, route ≠ home ++ [name]) → changed.node? route = tree.node? route)
    (hnode : ∀ name, changed.node? (home ++ [name]) = (files' name).map .file) :
    changed.InPlace dir home files' := by
  refine ⟨?_, hnode⟩
  obtain ⟨links, hway⟩ := h.way
  have hsame : changed.setOut dir = tree.setOut dir := by
    rw [setOut, setOut, start, start, hstart]
  rw [hsame]
  refine ⟨links, hway.mono ?_⟩
  intro route node hroute hfile
  rw [helse route, hroute]
  rintro name rfl
  have hnode := h.node name
  rw [hroute] at hnode
  cases hfiles : files name with
  | none =>
    rw [hfiles] at hnode
    cases hnode
  | some content =>
    rw [hfiles] at hnode
    exact hfile content (Option.some.inj hnode)

theorem InPlace.insertFile (h : tree.InPlace dir home files) (name : String) (content : Content) :
    (tree.insertNode (home ++ [name]) (.file content)).InPlace dir home
      (Function.update files name (some content)) := by
  apply h.of_change
  · rfl
  · intro route hroute
    exact node?_insertNode_of_ne tree (hroute name) _
  · intro other
    by_cases hother : other = name
    · subst hother
      rw [Function.update_self]
      exact node?_insertNode_self tree (by simp) _
    · rw [Function.update_of_ne hother, node?_insertNode_of_ne tree (by simpa using hother),
        h.node other]

theorem InPlace.eraseFile (h : tree.InPlace dir home files) (name : String) :
    (tree.eraseNode (home ++ [name])).InPlace dir home (Function.update files name none) := by
  apply h.of_change
  · rfl
  · intro route hroute
    exact node?_eraseNode_of_ne tree (hroute name)
  · intro other
    by_cases hother : other = name
    · subst hother
      rw [Function.update_self]
      exact node?_eraseNode_self (by simp)
    · rw [Function.update_of_ne hother, node?_eraseNode_of_ne tree (by simpa using hother),
        h.node other]

theorem Holds.write (h : tree.Holds dir files) (hentry : IsEntry dir name path)
    (hname : IsFileName name.toList) (hwrite : tree.write path content = .ok changed) :
    changed.Holds dir (Function.update files name (some content)) := by
  obtain ⟨place, route, hresolve, hplace, rfl⟩ := write_eq_ok hwrite
  obtain ⟨home, hhome⟩ := h.inPlace_of_resolve hentry hname hresolve
  obtain rfl := hhome.place_eq hentry hname hresolve
  obtain rfl := eq_of_fileRoute?_placeAt hplace
  exact .present (hhome.insertFile name content)

/-- A move gives a file another name. -/
theorem Holds.renameTo {draft source : String} (h : tree.Holds dir files)
    (hentry : IsEntry dir name path) (hname : IsFileName name.toList)
    (hsource : IsEntry dir draft source) (hdraft : IsFileName draft.toList) (hne : name ≠ draft)
    (hmove : tree.renameTo source path = .ok changed) :
    ∃ content, files draft = some content ∧
      changed.Holds dir
        (Function.update (Function.update files draft none) name (some content)) := by
  obtain ⟨sourceRoute, node, place, route, hfound, hresolve, hplace, rfl⟩ := renameTo_eq_ok hmove
  obtain ⟨home, hhome⟩ := h.inPlace_of_resolve hentry hname hresolve
  obtain rfl := hhome.place_eq hentry hname hresolve
  have hroute : route = home ++ [name] := by
    rcases hplace with hplace | ⟨other, hlink⟩
    · exact eq_of_fileRoute?_placeAt hplace
    · unfold placeAt at hlink
      rw [hhome.node name] at hlink
      cases hfile : files name <;> rw [hfile] at hlink <;> cases hlink
  have hmoved := hhome.place_eq hsource hdraft hfound
  unfold placeAt at hmoved
  rw [hhome.node draft] at hmoved
  cases hfile : files draft with
  | none =>
    rw [hfile] at hmoved
    cases hmoved
  | some content =>
    rw [hfile] at hmoved
    cases hmoved
    refine ⟨content, rfl, ?_⟩
    rw [if_neg (by simp [hroute, hne]), hroute]
    exact .present ((hhome.eraseFile draft).insertFile name content)

end FileTree

end CommitCoordinator.Storage
