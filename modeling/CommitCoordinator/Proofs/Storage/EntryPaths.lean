import CommitCoordinator.Proofs.Storage.FileNames
import CommitCoordinator.Storage.FileTree
import Mathlib.Data.List.Infix

/-!
# Paths into a directory and above it

The path of a name in a directory has the parts of the directory and then the name. The draft of a
file is in the same directory, and the directories above are those of the first parts.
-/

namespace CommitCoordinator.Storage

open FileTree

/-! ## Joined parts -/

theorem splitPath_joinParts {parts : List (List Char)} (h : parts ≠ [])
    (hslash : ∀ part ∈ parts, '/' ∉ part) : splitPath (joinParts parts) = parts := by
  induction parts with
  | nil => exact absurd rfl h
  | cons part rest ih =>
    have hpart := splitPath_of_not_mem (hslash part List.mem_cons_self)
    cases rest with
    | nil => exact hpart
    | cons next rest =>
      have hrest := ih (List.cons_ne_nil next rest) fun other hother ↦
        hslash other (List.mem_cons_of_mem part hother)
      rw [joinParts, splitPath_append_slash, hpart, hrest]
      · rfl
      · exact List.cons_ne_nil next rest

/-- A path is absolute if its first part is empty and there is another one. -/
theorem isAbsolute_iff {path : String} :
    isAbsolute path = true ↔ (splitPath path.toList).dropLast.head? = some [] := by
  unfold isAbsolute
  rw [decide_eq_true_iff]
  cases path.toList with
  | nil => simp [splitPath]
  | cons c rest =>
    rw [splitPath]
    split
    · next hc =>
      obtain ⟨part, parts, hparts⟩ := List.exists_cons_of_ne_nil (splitPath_ne_nil rest)
      simp [hc, hparts]
    · next hc =>
      obtain ⟨part, parts, hparts⟩ := List.exists_cons_of_ne_nil (splitPath_ne_nil rest)
      rw [hparts]
      cases parts <;> simp [hc]

theorem isAbsolute_congr {path other : String}
    (h : (splitPath path.toList).dropLast.head? = (splitPath other.toList).dropLast.head?) :
    isAbsolute path = isAbsolute other := by
  rw [Bool.eq_iff_iff, isAbsolute_iff, isAbsolute_iff, h]

theorem isAbsolute_of_splitPath {path : String} {head : List Char} {tail : List (List Char)}
    (h : splitPath path.toList = head :: tail) (hroot : tail = [] → head ≠ []) :
    isAbsolute path = true ↔ head = [] := by
  rw [isAbsolute_iff, h]
  cases tail with
  | nil => simpa using hroot rfl
  | cons => simp

/-! ## Names in a directory -/

/-- Whether a path is that of a name in a directory. -/
structure IsEntry (dir name path : String) : Prop where
  absolute : isAbsolute path = isAbsolute dir
  parts : ∃ front, splitPath path.toList = front ++ [name.toList] ∧
    (splitPath dir.toList = front ∨ splitPath dir.toList = front ++ [[]])

theorem isAbsolute_append {dir : String} (h : ¬dir.isEmpty) (more : String) :
    isAbsolute (dir ++ more) = isAbsolute dir := by
  have hdir : dir.toList ≠ [] :=
    fun hnil ↦ h (String.isEmpty_iff.2 (String.toList_eq_nil_iff.1 hnil))
  rw [isAbsolute, isAbsolute, String.toList_append, List.head?_append_of_ne_nil _ hdir]

theorem isEntry_childPath (dir : String) {name : String} (h : '/' ∉ name.toList) :
    IsEntry dir name (childPath dir name) := by
  have hname := splitPath_of_not_mem h
  rw [childPath, isAbsolute_of_not_mem h, Bool.false_or]
  split
  · next hempty =>
    obtain rfl := String.isEmpty_iff.1 hempty
    exact ⟨isAbsolute_of_not_mem h, [], hname, .inr rfl⟩
  · next hempty =>
    split
    · next hslash =>
      have hdir := (List.dropLast_append_getLast? _ hslash).symm
      refine ⟨isAbsolute_append hempty name, splitPath dir.toList.dropLast, ?_, .inr ?_⟩
      · rw [String.toList_append, hdir, List.append_assoc, List.singleton_append,
          splitPath_append_slash, hname, List.dropLast_concat]
      · calc splitPath dir.toList
          _ = splitPath (dir.toList.dropLast ++ ['/']) := congrArg splitPath hdir
          _ = splitPath dir.toList.dropLast ++ [[]] := splitPath_append_slash _ []
    · refine ⟨?_, splitPath dir.toList, ?_, .inl rfl⟩
      · rw [String.append_assoc, isAbsolute_append hempty]
      · rw [String.toList_append, String.toList_append, List.append_assoc, ← hname]
        exact splitPath_append_slash _ _

/-! ### Drafts -/

/-- With another extension, only the last part of a path is another one. -/
theorem withExtension_eq {path : String} (front : List (List Char)) {name : List Char}
    (hparts : splitPath path.toList = front ++ [name]) (hname : IsFileName name)
    (extension : String) :
    withExtension path extension =
      String.ofList (joinParts (front ++ [(splitExtension name).1]) ++
        '.' :: extension.toList) := by
  cases front with
  | nil =>
    have hpartsOf : partsOf path = (name, []) := by
      rw [partsOf, hparts]
      rfl
    have hfile : fileName? path = some name := by
      rw [fileName?, hpartsOf]
      simp [hname.ne_nil, hname.not_dots]
    rw [withExtension, hfile, hpartsOf]
    rfl
  | cons head tail =>
    have hpartsOf : partsOf path = (head, tail ++ [name]) := by
      rw [partsOf, hparts]
      exact congrArg (Prod.mk head) (dropIdle_append hname.not_idle)
    have hfile : fileName? path = some name := by
      rw [fileName?, hpartsOf]
      simp [hname.ne_nil, hname.not_dots]
    rw [withExtension, hfile, hpartsOf]
    simp

theorem toList_draftPath {name : String} (hname : IsFileName name.toList) :
    (draftPath name).toList = (splitExtension name.toList).1 ++ '.' :: draftExtension.toList := by
  rw [draftPath, withExtension_eq [] (splitPath_of_not_mem hname.slash) hname,
    String.toList_ofList]
  rfl

theorem IsFileName.draft {name : String} (hname : IsFileName name.toList) :
    IsFileName (draftPath name).toList := by
  rw [toList_draftPath hname]
  apply IsFileName.with_extension
  · exact fun hmem ↦ hname.slash (splitExtension_subset _ hmem)
  · decide
  · decide

/-- The draft of a file is in the same directory. -/
theorem IsEntry.draft {dir name path : String} (h : IsEntry dir name path)
    (hname : IsFileName name.toList) : IsEntry dir (draftPath name) (draftPath path) := by
  obtain ⟨front, hparts, hdir⟩ := h.parts
  have hslash (part : List Char) (hpart : part ∈ front) : '/' ∉ part :=
    slash_not_mem_splitPath (hparts ▸ List.mem_append_left _ hpart)
  have hdraft : splitPath (draftPath path).toList = front ++ [(draftPath name).toList] := by
    have hname' := hname.draft.slash
    rw [toList_draftPath hname] at hname' ⊢
    rw [draftPath, withExtension_eq front hparts hname, String.toList_ofList]
    cases front with
    | nil => exact splitPath_of_not_mem hname'
    | cons head tail =>
      rw [joinParts_concat (List.cons_ne_nil head tail), List.append_assoc, List.cons_append,
        splitPath_append_slash, splitPath_joinParts (List.cons_ne_nil head tail) hslash,
        splitPath_of_not_mem hname']
  refine ⟨?_, front, hdraft, hdir⟩
  rw [← h.absolute]
  apply isAbsolute_congr
  rw [hdraft, hparts, List.dropLast_concat, List.dropLast_concat]

/-! ## Directories above -/

theorem dropLast_prefix_dropLast {parts more : List (List Char)} (h : parts <+: more) :
    parts.dropLast <+: more.dropLast := by
  obtain ⟨rest, rfl⟩ := h
  by_cases hrest : rest = []
  · rw [hrest, List.append_nil]
  · rw [List.dropLast_append_of_ne_nil hrest]
    have hfront : parts.dropLast <+: parts := List.dropLast_prefix parts
    exact hfront.trans (List.prefix_append parts _)

theorem dropIdle_front (parts : List (List Char)) : dropIdle parts <+: parts := by
  rw [dropIdle, ← List.reverse_suffix, List.reverse_reverse]
  exact List.dropWhile_suffix _

/-- The directory of a path is that of its first parts. -/
theorem parent?_eq_some {path parent : String} (h : parent? path = some parent) :
    parent = "" ∨ parent = "/" ∨ isAbsolute parent = isAbsolute path ∧
      splitPath parent.toList <+: (splitPath path.toList).dropLast := by
  obtain ⟨head, tail, hparts⟩ := List.exists_cons_of_ne_nil (splitPath_ne_nil path.toList)
  have hpartsOf : partsOf path = (head, dropIdle tail) := by
    rw [partsOf, hparts]
  rw [parent?, hpartsOf] at h
  dsimp only at h
  split at h
  · split at h
    · cases h
    · cases h
      exact .inl rfl
  · next htail =>
    have htail : tail ≠ [] := fun hnil ↦ htail (by rw [hnil]; rfl)
    have hfront : head :: dropIdle (dropIdle tail).dropLast <+: head :: tail.dropLast :=
      (List.prefix_cons_inj head).2
        ((dropIdle_front _).trans (dropLast_prefix_dropLast (dropIdle_front tail)))
    rw [← List.dropLast_cons_of_ne_nil htail, ← hparts] at hfront
    have hslash (part : List Char) (hpart : part ∈ head :: dropIdle (dropIdle tail).dropLast) :
        '/' ∉ part :=
      slash_not_mem_splitPath ((List.dropLast_prefix _).subset (hfront.subset hpart))
    obtain rfl := Option.some.inj h
    split
    · exact .inr (.inl rfl)
    · next hroot =>
      have hjoined := splitPath_joinParts (List.cons_ne_nil _ _) hslash
      rw [← @String.toList_ofList (joinParts _)] at hjoined
      refine .inr (.inr ⟨?_, ?_⟩)
      · rw [Bool.eq_iff_iff, isAbsolute_of_splitPath hjoined (by simpa using hroot),
          isAbsolute_of_splitPath hparts fun hnil ↦ absurd hnil htail]
      · rw [hjoined]
        exact hfront

/-- Whether a path is that of a directory above another one, or of this one itself. -/
def IsAbove (dir path : String) : Prop :=
  path = "" ∨ path = "/" ∨
    isAbsolute path = isAbsolute dir ∧ splitPath path.toList <+: splitPath dir.toList

theorem IsAbove.parent {dir path parent : String} (h : IsAbove dir path)
    (hparent : parent? path = some parent) : IsAbove dir parent := by
  rcases h with rfl | rfl | ⟨habsolute, hparts⟩
  · cases hparent
  · cases hparent
  · rcases parent?_eq_some hparent with hempty | hroot | ⟨habsolute', hparts'⟩
    · exact .inl hempty
    · exact .inr (.inl hroot)
    · have hfront : (splitPath path.toList).dropLast <+: splitPath path.toList :=
        List.dropLast_prefix _
      exact .inr (.inr ⟨habsolute'.trans habsolute, (hparts'.trans hfront).trans hparts⟩)

theorem IsEntry.parent {dir name path parent : String} (h : IsEntry dir name path)
    (hparent : parent? path = some parent) : IsAbove dir parent := by
  obtain ⟨front, hparts, hdir⟩ := h.parts
  rcases parent?_eq_some hparent with hempty | hroot | ⟨habsolute, hprefix⟩
  · exact .inl hempty
  · exact .inr (.inl hroot)
  · rw [hparts, List.dropLast_concat] at hprefix
    refine .inr (.inr ⟨habsolute.trans h.absolute, hprefix.trans ?_⟩)
    rcases hdir with hdir | hdir
    · exact hdir ▸ List.prefix_rfl
    · exact hdir ▸ List.prefix_append front _

end CommitCoordinator.Storage
