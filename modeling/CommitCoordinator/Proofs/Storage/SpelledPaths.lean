import CommitCoordinator.Proofs.Storage.EntryPaths
import CommitCoordinator.Proofs.Storage.Walking

/-!
# The routes that paths spell

A path that never climbs to the directory above spells a route, whose last name is the name of the
file. The draft of a file and the files in a directory do not climb either.
-/

namespace CommitCoordinator.Storage

namespace FileTree

variable {route : Route} {parts : List String} {path : String}

/-- The names that the parts of a path spell, if the last part is one of them. -/
def spelled? : List String → Option Route
  | [] => none
  | part :: rest =>
    if part = "" ∨ part = "." then spelled? rest
    else if IsName part then
      if rest = [] then some [part] else (spelled? rest).map (part :: ·)
    else none

/-- The route that a path spells from the directory in which relative paths begin. -/
def routeFrom? (workingDir : Route) (path : String) : Option Route :=
  if Usable path then
    (spelled? (pathParts path)).map ((if isAbsolute path then [] else workingDir) ++ ·)
  else none

/-- Whether a path never climbs to the directory above. -/
def Climbless (path : String) : Prop :=
  ".." ∉ pathParts path

instance (path : String) : Decidable (Climbless path) :=
  inferInstanceAs (Decidable (¬_))

theorem spelled?_ne_nil {names : Route} (h : spelled? parts = some names) : names ≠ [] := by
  fun_induction spelled? parts generalizing names with
  | case1 => cases h
  | case2 _ _ _ ih => exact ih h
  | case3 => cases h; exact List.cons_ne_nil _ _
  | case4 =>
    obtain ⟨more, -, rfl⟩ := Option.map_eq_some_iff.1 h
    exact List.cons_ne_nil _ _
  | case5 => cases h

/-- The last name that a path spells is its last part. -/
theorem getLast?_of_spelled? {names : Route} (h : spelled? parts = some names) :
    ∃ name, IsName name ∧ names.getLast? = some name ∧ parts.getLast? = some name := by
  fun_induction spelled? parts generalizing names with
  | case1 => cases h
  | case2 part rest _ ih =>
    obtain ⟨name, hname, hlast, hparts⟩ := ih h
    exact ⟨name, hname, hlast, by rw [List.getLast?_cons, hparts]; rfl⟩
  | case3 part _ hname =>
    cases h
    exact ⟨part, hname, rfl, rfl⟩
  | case4 part rest _ _ _ ih =>
    obtain ⟨more, hmore, rfl⟩ := Option.map_eq_some_iff.1 h
    obtain ⟨name, hname, hlast, hparts⟩ := ih hmore
    exact ⟨name, hname, by rw [List.getLast?_cons, hlast]; rfl,
      by rw [List.getLast?_cons, hparts]; rfl⟩
  | case5 => cases h

theorem IsName.isFileName {name : String} (h : IsName name) (hslash : '/' ∉ name.toList) :
    IsFileName name.toList where
  slash := hslash
  ne_nil hnil := h.1 (.inl (String.toList_eq_nil_iff.1 hnil))
  not_dots := by
    simp only [isDots, Bool.or_eq_false_iff, decide_eq_false_iff_not]
    exact ⟨fun hdot ↦ h.1 (.inr (String.toList_injective hdot)),
      fun hdots ↦ h.2.1 (String.toList_injective hdots)⟩

/-- A path that spells a route leads to a file of the last name of the route. -/
theorem fileName?_of_routeFrom? {workingDir : Route} (h : routeFrom? workingDir path = some route) :
    ∃ name, route.getLast? = some name ∧ fileName? path = some name.toList := by
  unfold routeFrom? at h
  split at h
  · obtain ⟨names, hnames, rfl⟩ := Option.map_eq_some_iff.1 h
    obtain ⟨name, hname, hlast, hparts⟩ := getLast?_of_spelled? hnames
    refine ⟨name, by rw [List.getLast?_append, hlast]; rfl, ?_⟩
    obtain ⟨front, hfront⟩ := List.getLast?_eq_some_iff.1 hparts
    obtain ⟨above, last, hsplit, -, hlast⟩ := List.map_eq_append_iff.1 hfront
    obtain ⟨own, rfl, rfl⟩ := List.map_eq_singleton_iff.1 hlast
    rw [String.toList_ofList]
    have hslash : '/' ∉ own := slash_not_mem_splitPath (hsplit ▸ List.mem_append_right _
      List.mem_cons_self)
    have hfile : IsFileName own := by
      rw [← String.toList_ofList (l := own)]
      exact hname.isFileName (String.toList_ofList ▸ hslash)
    refine fileName?_of_endsIn hfile ?_
    rw [EndsIn, ← joinParts_splitPath path.toList, hsplit]
    by_cases habove : above = []
    · subst habove
      exact .inl rfl
    · exact .inr ⟨joinParts above, joinParts_concat habove own⟩
  · cases h

/-- Whether two paths that do not climb spell different routes, if they spell any. -/
def Apart (workingDir : Route) (path other : String) : Prop :=
  ∀ route, routeFrom? workingDir path = some route → routeFrom? workingDir other ≠ some route

theorem Apart.of_ne {workingDir : Route} {other : String}
    (h : routeFrom? workingDir path ≠ routeFrom? workingDir other) : Apart workingDir path other :=
  fun _ hpath hother ↦ h (hpath.trans hother.symm)

theorem Apart.symm {workingDir : Route} {other : String} (h : Apart workingDir path other) :
    Apart workingDir other path :=
  fun route hother hpath ↦ h route hpath hother

/-- Paths that lead to files of different names spell different routes. -/
theorem Apart.of_names {workingDir : Route} {other : String} {name name' : List Char}
    (h : fileName? path = some name) (h' : fileName? other = some name') (hne : name ≠ name') :
    Apart workingDir path other := by
  intro route hpath hother
  obtain ⟨last, hlast, hname⟩ := fileName?_of_routeFrom? hpath
  obtain ⟨last', hlast', hname'⟩ := fileName?_of_routeFrom? hother
  cases hlast.symm.trans hlast'
  exact hne (Option.some.inj (h.symm.trans (hname.trans (hname'.symm.trans h'))))

/-! ## Drafts and files in a directory -/

theorem climbless_iff : Climbless path ↔ ['.', '.'] ∉ splitPath path.toList := by
  refine not_congr ⟨fun h ↦ ?_, fun h ↦ List.mem_map.2 ⟨_, h, rfl⟩⟩
  obtain ⟨part, hpart, heq⟩ := List.mem_map.1 h
  rwa [show part = ['.', '.'] from String.ofList_injective heq] at hpart

/-- The draft of a file is in the directory of the file. -/
theorem climbless_draftPath (h : Climbless path) : Climbless (draftPath path) := by
  cases hname : fileName? path with
  | none => rwa [draftPath_of_none hname]
  | some name =>
    obtain ⟨head, tail, hparts⟩ := List.exists_cons_of_ne_nil (splitPath_ne_nil path.toList)
    rw [climbless_iff, hparts] at h
    have hslash : ∀ part ∈ head :: tail, '/' ∉ part :=
      fun part hpart ↦ slash_not_mem_splitPath (hparts ▸ hpart)
    have hstem : '/' ∉ (splitExtension name).1 :=
      fun hmem ↦ slash_not_mem_fileName? hname (splitExtension_subset name hmem)
    have hdraft : IsFileName ((splitExtension name).1 ++ '.' :: draftExtension.toList) :=
      .with_extension hstem (by decide) (by decide)
    have hdots : ['.', '.'] ≠ (splitExtension name).1 ++ '.' :: draftExtension.toList := by
      intro heq
      have hnot := hdraft.not_dots
      rw [← heq] at hnot
      cases hnot
    have hpartsOf : partsOf path = (head, dropIdle tail) := by rw [partsOf, hparts]
    rw [climbless_iff, draftPath, withExtension, hname, hpartsOf, String.toList_ofList]
    split
    · rw [joinParts, splitPath_of_not_mem hdraft.slash, List.mem_singleton]
      exact hdots
    · have hsubset : head :: (dropIdle tail).dropLast ⊆ head :: tail :=
        List.cons_subset_cons _ fun part hpart ↦
          (dropIdle_front tail).subset (List.dropLast_subset _ hpart)
      rw [← List.cons_append, joinParts_concat (List.cons_ne_nil _ _), List.append_assoc,
        List.cons_append, splitPath_append_slash, splitPath_of_not_mem hdraft.slash,
        splitPath_joinParts (List.cons_ne_nil _ _) fun part hpart ↦ hslash part (hsubset hpart),
        List.mem_append, List.mem_singleton, not_or]
      exact ⟨fun hmem ↦ h (hsubset hmem), hdots⟩

/-- A file is in its directory. -/
theorem climbless_childPath {dir name : String} (hname : IsFileName name.toList)
    (h : Climbless dir) : Climbless (childPath dir name) := by
  obtain ⟨front, hparts, hdir⟩ := (isEntry_childPath dir hname.slash).parts
  rw [climbless_iff] at h ⊢
  have hfront : ['.', '.'] ∉ front := by
    rcases hdir with hdir | hdir
    · exact hdir ▸ h
    · exact fun hmem ↦ h (hdir ▸ List.mem_append_left _ hmem)
  rw [hparts, List.mem_append, List.mem_singleton, not_or]
  refine ⟨hfront, fun heq ↦ ?_⟩
  have hnot := hname.not_dots
  rw [← heq] at hnot
  cases hnot

end FileTree

end CommitCoordinator.Storage
