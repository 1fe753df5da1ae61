import CommitCoordinator.Config.TableKey
import CommitCoordinator.Storage.Replace
import Mathlib.Data.List.Basic

/-!
# Names of files, drafts and snapshots

The name of a file is what follows the last slash of its path. A draft has a name of its own, and
so have the snapshots of each table, so that no snapshots are in the way of others.
-/

namespace CommitCoordinator.Storage

/-- Whether text can stand for a file as the last part of a path. -/
structure IsFileName (name : List Char) : Prop where
  slash : '/' ∉ name
  ne_nil : name ≠ []
  not_dots : isDots name = false

/-! ## Splitting -/

theorem splitPath_of_not_mem {cs : List Char} (h : '/' ∉ cs) : splitPath cs = [cs] := by
  induction cs with
  | nil => rfl
  | cons c rest ih =>
    rw [List.mem_cons, not_or] at h
    rw [splitPath, if_neg (Ne.symm h.1), ih h.2]

theorem splitPath_append_slash (front back : List Char) :
    splitPath (front ++ '/' :: back) = splitPath front ++ splitPath back := by
  induction front with
  | nil => rfl
  | cons c rest ih =>
    rw [List.cons_append, splitPath, splitPath, ih]
    split
    · rfl
    · cases hparts : splitPath rest with
      | nil => exact absurd hparts (splitPath_ne_nil rest)
      | cons part parts => rfl

theorem slash_not_mem_splitPath {cs part : List Char} (h : part ∈ splitPath cs) : '/' ∉ part := by
  induction cs generalizing part with
  | nil =>
    cases List.mem_singleton.1 h
    exact List.not_mem_nil
  | cons c rest ih =>
    rw [splitPath] at h
    split at h
    · rcases List.mem_cons.1 h with rfl | h
      · exact List.not_mem_nil
      · exact ih h
    · next hc =>
      cases hparts : splitPath rest with
      | nil => exact absurd hparts (splitPath_ne_nil rest)
      | cons first parts =>
        rw [hparts] at h ih
        rcases List.mem_cons.1 h with rfl | h
        · exact fun hmem ↦ (List.mem_cons.1 hmem).elim (fun heq ↦ hc heq.symm)
            (ih List.mem_cons_self)
        · exact ih (List.mem_cons_of_mem _ h)

theorem dropIdle_append {parts : List (List Char)} {part : List Char}
    (h : isIdlePart part = false) : dropIdle (parts ++ [part]) = parts ++ [part] := by
  rw [dropIdle, List.reverse_append, List.reverse_singleton, List.singleton_append,
    List.dropWhile_cons_of_neg (by simp [h]), ← List.singleton_append, List.reverse_append,
    List.reverse_reverse, List.reverse_singleton]

theorem IsFileName.not_idle {name : List Char} (h : IsFileName name) :
    isIdlePart name = false := by
  have hdots := h.not_dots
  simp only [isDots, Bool.or_eq_false_iff, decide_eq_false_iff_not] at hdots
  simp [isIdlePart, h.ne_nil, hdots.1]

/-! ## The name at the end of a path -/

/-- Whether a path ends in a name. -/
def EndsIn (path : String) (name : List Char) : Prop :=
  path.toList = name ∨ ∃ front, path.toList = front ++ '/' :: name

theorem partsOf_of_endsIn {path : String} {name : List Char} (hname : IsFileName name)
    (h : EndsIn path name) :
    ∃ head tail, partsOf path = (head, tail) ∧ tail.getLast?.getD head = name := by
  unfold partsOf
  rcases h with hpath | ⟨front, hpath⟩
  · rw [hpath, splitPath_of_not_mem hname.slash]
    exact ⟨name, [], rfl, rfl⟩
  · rw [hpath, splitPath_append_slash, splitPath_of_not_mem hname.slash]
    cases hparts : splitPath front with
    | nil => exact absurd hparts (splitPath_ne_nil front)
    | cons head tail =>
      refine ⟨head, tail ++ [name], ?_, ?_⟩
      · exact congrArg (Prod.mk head) (dropIdle_append hname.not_idle)
      · rw [List.getLast?_concat, Option.getD_some]

/-- The name of a file is what its path ends in. -/
theorem fileName?_of_endsIn {path : String} {name : List Char} (hname : IsFileName name)
    (h : EndsIn path name) : fileName? path = some name := by
  obtain ⟨head, tail, hparts, hlast⟩ := partsOf_of_endsIn hname h
  rw [fileName?, hparts]
  change (if _ then none else some (tail.getLast?.getD head)) = some name
  rw [hlast, if_neg]
  simp [hname.ne_nil, hname.not_dots]

theorem isAbsolute_of_not_mem {name : String} (h : '/' ∉ name.toList) :
    isAbsolute name = false :=
  decide_eq_false fun hhead ↦ h (List.mem_of_mem_head? hhead)

theorem endsIn_childPath (dir : String) {name : String} (h : '/' ∉ name.toList) :
    EndsIn (childPath dir name) name.toList := by
  rw [childPath, isAbsolute_of_not_mem h, Bool.false_or]
  split
  · exact .inl rfl
  · split
    · next hslash =>
      refine .inr ⟨dir.toList.dropLast, ?_⟩
      rw [String.toList_append, List.append_cons]
      exact congrArg (· ++ name.toList) (List.dropLast_append_getLast? _ hslash).symm
    · refine .inr ⟨dir.toList, ?_⟩
      rw [String.toList_append, String.toList_append, List.append_assoc]
      rfl

/-! ## Drafts -/

theorem draftPath_of_none {path : String} (h : fileName? path = none) : draftPath path = path := by
  rw [draftPath, withExtension, h]

/-- The stem of a name is a part of it. -/
theorem splitExtension_subset (name : List Char) : (splitExtension name).1 ⊆ name := by
  intro c hc
  unfold splitExtension at hc
  dsimp only at hc
  split at hc
  · exact hc
  · have hmem := List.mem_reverse.1 (List.dropLast_subset _ hc)
    exact List.mem_reverse.1 ((List.dropWhile_suffix _).subset hmem)

theorem joinParts_concat {parts : List (List Char)} (h : parts ≠ []) (part : List Char) :
    joinParts (parts ++ [part]) = joinParts parts ++ '/' :: part := by
  induction parts with
  | nil => exact absurd rfl h
  | cons first rest ih =>
    cases rest with
    | nil => rfl
    | cons second rest =>
      change first ++ '/' :: joinParts (second :: rest ++ [part]) = _
      rw [ih (List.cons_ne_nil second rest), ← List.cons_append, ← List.append_assoc]
      rfl

theorem IsFileName.with_extension {stem extension : List Char} (hstem : '/' ∉ stem)
    (hextension : '/' ∉ extension) (hlength : 2 ≤ extension.length) :
    IsFileName (stem ++ '.' :: extension) where
  slash hmem := by
    rcases List.mem_append.1 hmem with hmem | hmem
    · exact hstem hmem
    · exact (List.mem_cons.1 hmem).elim (fun heq ↦ absurd heq (by decide)) hextension
  ne_nil := by simp
  not_dots := by
    have hlong : 2 < (stem ++ '.' :: extension).length := by
      rw [List.length_append, List.length_cons]
      omega
    simp only [isDots, Bool.or_eq_false_iff, decide_eq_false_iff_not]
    constructor <;> intro heq <;> rw [heq] at hlong <;> simp at hlong

theorem slash_not_mem_fileName? {path : String} {name : List Char}
    (h : fileName? path = some name) : '/' ∉ name := by
  unfold fileName? partsOf at h
  cases hparts : splitPath path.toList with
  | nil => exact absurd hparts (splitPath_ne_nil _)
  | cons head tail =>
    rw [hparts] at h
    change (if _ then none else some ((dropIdle tail).getLast?.getD head)) = some name at h
    split at h
    · cases h
    · cases h
      have hlast : (dropIdle tail).getLast?.getD head ∈ splitPath path.toList := by
        rw [hparts]
        cases hlast : (dropIdle tail).getLast? with
        | none => exact List.mem_cons_self
        | some last =>
          have hmem := List.mem_reverse.1 (List.mem_of_getLast? hlast)
          exact List.mem_cons_of_mem _ (List.mem_reverse.1 ((List.dropWhile_suffix _).subset hmem))
      exact slash_not_mem_splitPath hlast

/-- The name of a draft is the name of the file with another extension. -/
theorem fileName?_draftPath {path : String} {name : List Char} (h : fileName? path = some name) :
    fileName? (draftPath path) =
      some ((splitExtension name).1 ++ '.' :: draftExtension.toList) := by
  have hstem : '/' ∉ (splitExtension name).1 :=
    fun hmem ↦ slash_not_mem_fileName? h (splitExtension_subset name hmem)
  refine fileName?_of_endsIn (.with_extension hstem (by decide) (by decide)) ?_
  rw [draftPath, withExtension, h]
  dsimp only
  split
  · exact .inl (String.toList_ofList)
  · refine .inr ⟨joinParts ((partsOf path).1 :: (partsOf path).2.dropLast), ?_⟩
    rw [String.toList_ofList, ← List.cons_append, joinParts_concat (List.cons_ne_nil _ _),
      List.append_assoc, List.cons_append]

/-- A name in a draft is not the name of a file of another extension. -/
theorem ne_draftName {stem other : List Char} :
    stem ++ ".json".toList ≠ other ++ '.' :: draftExtension.toList := by
  intro heq
  have hfile : ".json".toList.getLast? = some 'n' := by decide
  have hdraft : ('.' :: draftExtension.toList).getLast? = some 'p' := by decide
  have hlast := congrArg List.getLast? heq
  rw [List.getLast?_append, List.getLast?_append, hfile, hdraft] at hlast
  cases hlast

end CommitCoordinator.Storage

namespace CommitCoordinator.TableKey

open Storage

variable {key other : TableKey}

theorem toList_stateFileName (key : TableKey) :
    key.stateFileName.toList = key.text.toList ++ ".json".toList :=
  String.toList_append

theorem isFileName_stateFileName (h : key.hasSeparator = false) :
    IsFileName key.stateFileName.toList := by
  have hslash : '/' ∉ key.text.toList := fun hmem ↦ by
    simpa using List.any_eq_false.1 h '/' hmem
  rw [toList_stateFileName]
  exact .with_extension hslash (by decide) (by decide)

/-- The snapshots of a table are in a file that is named after the key. -/
theorem fileName?_statePath (h : key.hasSeparator = false) (dir : String) :
    fileName? (key.statePath dir) = some key.stateFileName.toList :=
  have hname := isFileName_stateFileName h
  fileName?_of_endsIn hname (endsIn_childPath dir hname.slash)

theorem stateFileName_ne (h : key ≠ other) :
    key.stateFileName.toList ≠ other.stateFileName.toList := by
  intro heq
  rw [toList_stateFileName, toList_stateFileName] at heq
  apply h
  obtain ⟨text⟩ := key
  obtain ⟨text'⟩ := other
  exact congrArg TableKey.mk (String.toList_injective (List.append_cancel_right heq))

end CommitCoordinator.TableKey
