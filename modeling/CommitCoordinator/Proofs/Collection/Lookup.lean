import CommitCoordinator.Collection.Sequenced
import CommitCoordinator.Collection.Sorted
import Mathlib.Data.List.Basic

/-!
# Lookups after insertions

In both kinds of maps an insertion decides the lookup of its own key and leaves the lookups of
all other keys alone. A set of names has the names it was made of, each once.
-/

namespace CommitCoordinator

section Sorted

variable {β : Type} {name other : String} (value : β)

theorem find?_insertSorted_self {entries : List (String × β)} :
    (insertSorted name value entries).find? (fun entry ↦ entry.1 = name) = some (name, value) := by
  induction entries with
  | nil => simp [insertSorted]
  | cons head rest ih =>
    rw [insertSorted]
    split
    · simp
    · split
      · simp
      · rename_i hne
        rw [List.find?_cons_of_neg (by simpa using Ne.symm hne), ih]

theorem find?_insertSorted_of_ne {entries : List (String × β)} (h : other ≠ name) :
    (insertSorted name value entries).find? (fun entry ↦ entry.1 = other) =
      entries.find? fun entry ↦ entry.1 = other := by
  have hskip (rest : List (String × β)) : ((name, value) :: rest).find? (·.1 = other) =
      rest.find? (·.1 = other) :=
    List.find?_cons_of_neg (by simpa using Ne.symm h)
  induction entries with
  | nil => exact hskip []
  | cons head rest ih =>
    rw [insertSorted]
    split
    · exact hskip (head :: rest)
    · split
      · rename_i heq
        rw [hskip]
        exact (List.find?_cons_of_neg (by simpa [← heq] using Ne.symm h)).symm
      · rw [List.find?_cons, List.find?_cons, ih]

@[simp] theorem SortedMap.find?_insert_self (map : SortedMap β) :
    (map.insert name value).find? name = some value := by
  rw [find?, insert, find?_insertSorted_self]
  rfl

theorem SortedMap.find?_insert_of_ne (map : SortedMap β) (h : other ≠ name) :
    (map.insert name value).find? other = map.find? other := by
  rw [find?, insert, find?_insertSorted_of_ne value h]
  rfl

end Sorted

namespace SortedSet

variable {name other : String} {names : List String}

theorem mem_insertName_iff : other ∈ insertName name names ↔ other = name ∨ other ∈ names := by
  refine ⟨mem_insertName, fun h ↦ ?_⟩
  induction names with
  | nil => simpa [insertName] using h
  | cons head rest ih =>
    rw [insertName]
    split
    · exact List.mem_cons.2 h
    · split
      · next heq => exact h.elim (fun hname ↦ hname ▸ heq ▸ List.mem_cons_self) id
      · rcases h with hname | hmem
        · exact List.mem_cons_of_mem head (ih (.inl hname))
        · exact (List.mem_cons.1 hmem).elim (fun hhead ↦ hhead ▸ List.mem_cons_self)
            fun hrest ↦ List.mem_cons_of_mem head (ih (.inr hrest))

theorem mem_foldl_insert (set : SortedSet) :
    name ∈ (names.foldl insert set).elements ↔ name ∈ set.elements ∨ name ∈ names := by
  induction names generalizing set with
  | nil => simp
  | cons head rest ih =>
    rw [List.foldl_cons, ih, insert, mem_insertName_iff, List.mem_cons, or_comm (a := name = head),
      or_assoc]

theorem mem_ofList : name ∈ (ofList names).elements ↔ name ∈ names := by
  rw [ofList, mem_foldl_insert]
  exact or_iff_right List.not_mem_nil

theorem nodup_elements (set : SortedSet) : set.elements.Nodup :=
  set.ascending.imp String.ne_of_lt

/-- A set is the set of its names. -/
theorem ofList_elements (set : SortedSet) : ofList set.elements = set := by
  have hperm : (ofList set.elements).elements.Perm set.elements :=
    (List.perm_ext_iff_of_nodup (nodup_elements _) (nodup_elements _)).2 fun _ ↦ mem_ofList
  have helements : (ofList set.elements).elements = set.elements :=
    hperm.eq_of_pairwise (fun _ _ _ _ hlt hgt ↦ absurd hgt (String.lt_asymm hlt))
      (ofList set.elements).ascending set.ascending
  cases hset : ofList set.elements with
  | mk elements ascending =>
    rw [hset] at helements
    subst helements
    rfl

end SortedSet

namespace SequencedMap

variable {κ β : Type} [DecidableEq κ] {key other : κ} {value : β}

theorem contains_eq_isSome (map : SequencedMap κ β) (key : κ) :
    map.contains key = (map.find? key).isSome := by
  rw [find?, Option.isSome_map, Bool.eq_iff_iff, List.find?_isSome]
  simp only [contains, keys, decide_eq_true_iff, List.mem_map]

theorem keys_insert_of_not_contains {map : SequencedMap κ β} (h : map.contains key = false)
    (value : β) : (map.insert key value).keys = map.keys ++ [key] := by
  have hnew : key ∉ map.entries.map Prod.fst := of_decide_eq_false h
  rw [insert, dif_neg hnew, keys, List.map_append]
  rfl

/-- An entry is what a lookup of its key finds, for keys are never repeated. -/
theorem find?_eq_some_iff {map : SequencedMap κ β} :
    map.find? key = some value ↔ (key, value) ∈ map.entries := by
  obtain ⟨entries, hnodup⟩ := map
  constructor
  · intro h
    obtain ⟨⟨other, found⟩, hfind, rfl⟩ := Option.map_eq_some_iff.1 h
    have hkey : other = key := by simpa using List.find?_some hfind
    exact hkey ▸ List.mem_of_find?_eq_some hfind
  · intro h
    rw [find?, Option.map_eq_some_iff]
    induction entries with
    | nil => cases h
    | cons head rest ih =>
      obtain ⟨hnew, hrest⟩ := List.nodup_cons.1 hnodup
      rcases List.mem_cons.1 h with rfl | hmem
      · exact ⟨(key, value), List.find?_cons_of_pos (by simp), rfl⟩
      · have hne : head.1 ≠ key := by
          rintro rfl
          exact hnew (List.mem_map.2 ⟨_, hmem, rfl⟩)
        rw [List.find?_cons_of_neg (by simpa using hne)]
        exact ih hrest hmem

theorem find?_replaceValue_self {entries : List (κ × β)} (h : key ∈ entries.map Prod.fst) :
    (replaceValue key value entries).find? (fun entry ↦ entry.1 = key) = some (key, value) := by
  induction entries with
  | nil => cases h
  | cons head rest ih =>
    rw [replaceValue, List.map_cons, ← replaceValue]
    by_cases hhead : head.1 = key
    · rw [if_pos hhead, List.find?_cons_of_pos (by simp)]
    · have hrest : key ∈ rest.map Prod.fst := by
        simpa [Ne.symm hhead] using h
      rw [if_neg hhead, List.find?_cons_of_neg (by simpa using hhead), ih hrest]

theorem find?_replaceValue_of_ne {entries : List (κ × β)} (h : other ≠ key) :
    (replaceValue key value entries).find? (fun entry ↦ entry.1 = other) =
      entries.find? fun entry ↦ entry.1 = other := by
  induction entries with
  | nil => rfl
  | cons head rest ih =>
    rw [replaceValue, List.map_cons, ← replaceValue, List.find?_cons, List.find?_cons, ih]
    by_cases hhead : head.1 = key
    · simp [hhead, Ne.symm h]
    · rw [if_neg hhead]

@[simp] theorem find?_insert_self (map : SequencedMap κ β) (key : κ) (value : β) :
    (map.insert key value).find? key = some value := by
  unfold find? insert
  split
  · rename_i hmem
    rw [find?_replaceValue_self hmem]
    rfl
  · rename_i hmem
    have hnone : map.entries.find? (fun entry ↦ entry.1 = key) = none := by
      refine List.find?_eq_none.2 fun entry hentry hkey ↦ hmem ?_
      exact List.mem_map.2 ⟨entry, hentry, of_decide_eq_true hkey⟩
    rw [List.find?_append, hnone]
    simp

/-- A new value takes the place of the one that is found. -/
theorem entries_insert_of_find? {map : SequencedMap κ β} {current : β}
    (h : map.find? key = some current) (value : β) : ∃ front back,
      map.entries = front ++ (key, current) :: back ∧
      (map.insert key value).entries = front ++ (key, value) :: back := by
  have hmem := find?_eq_some_iff.1 h
  obtain ⟨front, back, hentries⟩ := List.append_of_mem hmem
  have hnodup := map.nodup
  rw [hentries, List.map_append, List.map_cons] at hnodup
  obtain ⟨-, hback, hdisjoint⟩ := List.nodup_append.1 hnodup
  have hfront : key ∉ front.map Prod.fst := fun hkey ↦
    hdisjoint key hkey key List.mem_cons_self rfl
  have hother {entries : List (κ × β)} (hkey : key ∉ entries.map Prod.fst) :
      replaceValue key value entries = entries := by
    refine (List.map_congr_left fun entry hentry ↦ if_neg ?_).trans (List.map_id' entries)
    exact fun hsame ↦ hkey (List.mem_map.2 ⟨entry, hentry, hsame⟩)
  have hpresent : key ∈ map.entries.map Prod.fst := List.mem_map.2 ⟨_, hmem, rfl⟩
  refine ⟨front, back, hentries, ?_⟩
  rw [insert, dif_pos hpresent]
  change replaceValue key value map.entries = _
  rw [hentries]
  have hsplit : replaceValue key value (front ++ (key, current) :: back) =
      replaceValue key value front ++ (key, value) :: replaceValue key value back := by
    simp [replaceValue]
  rw [hsplit, hother hfront, hother (List.nodup_cons.1 hback).1]

theorem find?_insert_of_ne (map : SequencedMap κ β) (value : β) (h : other ≠ key) :
    (map.insert key value).find? other = map.find? other := by
  unfold find? insert
  split
  · rw [find?_replaceValue_of_ne h]
  · rw [List.find?_append]
    simp [Ne.symm h]

@[simp] theorem find?_erase_self (map : SequencedMap κ β) (key : κ) :
    (map.erase key).find? key = none := by
  have hnone : (map.erase key).entries.find? (fun entry ↦ entry.1 = key) = none := by
    apply List.find?_eq_none.2
    intro entry hentry hkey
    have hkept := (List.mem_filter.1 hentry).2
    rw [hkey] at hkept
    cases hkept
  rw [find?, hnone, Option.map_none]

/-- What is picked from the entries stays the same if nothing is picked from one that is set. -/
theorem filterMap_insert {γ : Type} (map : SequencedMap κ β) {pick : κ × β → Option γ}
    (h : ∀ value, pick (key, value) = none) (value : β) :
    (map.insert key value).entries.filterMap pick = map.entries.filterMap pick := by
  unfold insert
  split
  · refine List.filterMap_map.trans ?_
    refine List.filterMap_congr fun entry _ ↦ ?_
    by_cases hkey : entry.1 = key
    · rw [Function.comp_apply, if_pos hkey, h, ← h entry.2, ← hkey]
    · rw [Function.comp_apply, if_neg hkey]
  · rw [List.filterMap_append, List.filterMap_cons_none (h value), List.filterMap_nil,
      List.append_nil]

theorem filterMap_erase {γ : Type} (map : SequencedMap κ β) {pick : κ × β → Option γ}
    (h : ∀ value, pick (key, value) = none) :
    (map.erase key).entries.filterMap pick = map.entries.filterMap pick := by
  rw [erase, List.filterMap_filter]
  refine List.filterMap_congr fun entry _ ↦ ?_
  by_cases hkey : entry.1 = key
  · subst hkey
    rw [if_neg (by simp), h entry.2]
  · rw [if_pos (by simpa using hkey)]

theorem find?_erase_of_ne (map : SequencedMap κ β) (h : other ≠ key) :
    (map.erase key).find? other = map.find? other := by
  have hfind : (map.erase key).entries.find? (fun entry ↦ entry.1 = other) =
      map.entries.find? fun entry ↦ entry.1 = other := by
    rw [erase, List.find?_filter]
    congr 1
    funext entry
    by_cases hother : entry.1 = other
    · simp [hother, h]
    · simp [hother]
  rw [find?, hfind, find?]

end SequencedMap

end CommitCoordinator
