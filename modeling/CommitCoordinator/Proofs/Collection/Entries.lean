import CommitCoordinator.Collection.Sequenced
import CommitCoordinator.Collection.Sorted

/-!
# Maps made of their own entries

The entries of a map have different names, in ascending order if the map is sorted. A map that
takes them in one after the other puts each of them behind those before it.
-/

namespace CommitCoordinator

theorem SequencedMap.entries_foldl {κ β : Type} [DecidableEq κ] (map : SequencedMap κ β)
    (entries : List (κ × β)) (h : ((map.entries ++ entries).map Prod.fst).Nodup) :
    (entries.foldl (fun map entry ↦ map.insert entry.1 entry.2) map).entries =
      map.entries ++ entries := by
  induction entries generalizing map with
  | nil => exact (List.append_nil _).symm
  | cons entry rest ih =>
    have hnew : entry.1 ∉ map.entries.map Prod.fst := by
      rw [List.map_append, List.map_cons] at h
      exact fun hmem ↦ (List.nodup_append.1 h).2.2 _ hmem _ List.mem_cons_self rfl
    have hinsert : (map.insert entry.1 entry.2).entries = map.entries ++ [entry] := by
      rw [insert, dif_neg hnew]
    have hrest := ih (map.insert entry.1 entry.2)
      (by rwa [hinsert, List.append_assoc, List.singleton_append])
    rw [List.foldl_cons, hrest, hinsert, List.append_assoc, List.singleton_append]

theorem SequencedMap.eq_of_entries {κ β : Type} {map other : SequencedMap κ β}
    (h : map.entries = other.entries) : map = other := by
  cases map
  cases other
  cases h
  rfl

/-- A map is the map of its entries. -/
theorem SequencedMap.ofList_entries {κ β : Type} [DecidableEq κ] (map : SequencedMap κ β) :
    ofList map.entries = map :=
  eq_of_entries (entries_foldl empty map.entries map.nodup)

theorem insertSorted_of_lt {β : Type} {name : String} (value : β) {entries : List (String × β)}
    (h : ∀ entry ∈ entries, entry.1 < name) :
    insertSorted name value entries = entries ++ [(name, value)] := by
  induction entries with
  | nil => rfl
  | cons entry rest ih =>
    have hlt := h entry List.mem_cons_self
    rw [insertSorted, if_neg (String.lt_asymm hlt), if_neg (Ne.symm (String.ne_of_lt hlt)),
      ih fun other hother ↦ h other (List.mem_cons_of_mem entry hother), List.cons_append]

theorem SortedMap.entries_foldl {β : Type} (map : SortedMap β) (entries : List (String × β))
    (h : (map.entries ++ entries).Pairwise fun a b ↦ a.1 < b.1) :
    (entries.foldl (fun map entry ↦ map.insert entry.1 entry.2) map).entries =
      map.entries ++ entries := by
  induction entries generalizing map with
  | nil => exact (List.append_nil _).symm
  | cons entry rest ih =>
    have hlast : ∀ other ∈ map.entries, other.1 < entry.1 := fun other hother ↦
      (List.pairwise_append.1 h).2.2 other hother entry List.mem_cons_self
    have hinsert : (map.insert entry.1 entry.2).entries = map.entries ++ [entry] :=
      insertSorted_of_lt entry.2 hlast
    have hrest := ih (map.insert entry.1 entry.2)
      (by rwa [hinsert, List.append_assoc, List.singleton_append])
    rw [List.foldl_cons, hrest, hinsert, List.append_assoc, List.singleton_append]

/-- A map is the map of its entries. -/
theorem SortedMap.ofList_entries {β : Type} (map : SortedMap β) : ofList map.entries = map := by
  have hentries : (ofList map.entries).entries = map.entries :=
    entries_foldl empty map.entries map.ascending
  cases hmap : ofList map.entries with
  | mk entries ascending =>
    rw [hmap] at hentries
    subst hentries
    rfl

end CommitCoordinator
