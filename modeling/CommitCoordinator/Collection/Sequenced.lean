/-!
# Sets and maps in the order of insertion

A sequenced collection remembers the order in which its members first arrived: inserting a
present member keeps its position, and a removed member that comes back goes to the end.
-/

namespace CommitCoordinator

/-- A finite set whose elements stay in the order in which they were first inserted. -/
structure SequencedSet (α : Type) where
  elements : List α
  nodup : elements.Nodup
deriving DecidableEq

/-- A finite map whose entries stay in the order in which their keys were first inserted. -/
structure SequencedMap (κ β : Type) where
  entries : List (κ × β)
  nodup : (entries.map Prod.fst).Nodup
deriving DecidableEq

namespace SequencedSet

theorem nodup_append_singleton {α : Type} {elements : List α} {x : α} (h : elements.Nodup)
    (hx : x ∉ elements) : (elements ++ [x]).Nodup := by
  refine List.nodup_append.2 ⟨h, by simp, ?_⟩
  intro a ha b hb
  rw [List.mem_singleton] at hb
  exact fun hab ↦ hx (hb ▸ hab ▸ ha)

variable {α : Type} [DecidableEq α]

def empty : SequencedSet α := ⟨[], .nil⟩

instance : Inhabited (SequencedSet α) := ⟨empty⟩
instance : EmptyCollection (SequencedSet α) := ⟨empty⟩

def contains (set : SequencedSet α) (x : α) : Bool :=
  decide (x ∈ set.elements)

def size (set : SequencedSet α) : Nat :=
  set.elements.length

/-- Adds an element at the end unless it is present. -/
def insert (set : SequencedSet α) (x : α) : SequencedSet α :=
  if h : x ∈ set.elements then set
  else ⟨set.elements ++ [x], nodup_append_singleton set.nodup h⟩

/-- Adds the elements of a list in order. -/
def insertAll (set : SequencedSet α) (xs : List α) : SequencedSet α :=
  xs.foldl insert set

/-- The elements of a list, each at its first position. -/
def ofList (xs : List α) : SequencedSet α :=
  empty.insertAll xs

theorem insert_of_mem {set : SequencedSet α} {x : α} (h : x ∈ set.elements) :
    set.insert x = set := by
  simp [insert, h]

theorem elements_insert_of_not_mem {set : SequencedSet α} {x : α} (h : x ∉ set.elements) :
    (set.insert x).elements = set.elements ++ [x] := by
  simp [insert, h]

end SequencedSet

namespace SequencedMap

variable {κ β : Type} [DecidableEq κ]

def empty : SequencedMap κ β := ⟨[], .nil⟩

instance : Inhabited (SequencedMap κ β) := ⟨empty⟩
instance : EmptyCollection (SequencedMap κ β) := ⟨empty⟩

def keys (map : SequencedMap κ β) : List κ :=
  map.entries.map Prod.fst

def values (map : SequencedMap κ β) : List β :=
  map.entries.map Prod.snd

/-- The value under a key. -/
def find? (map : SequencedMap κ β) (key : κ) : Option β :=
  (map.entries.find? fun entry ↦ entry.1 = key).map Prod.snd

def contains (map : SequencedMap κ β) (key : κ) : Bool :=
  decide (key ∈ map.keys)

/-- Replaces the value of a present key. -/
def replaceValue (key : κ) (value : β) (entries : List (κ × β)) : List (κ × β) :=
  entries.map fun entry ↦ if entry.1 = key then (key, value) else entry

theorem keys_replaceValue (key : κ) (value : β) (entries : List (κ × β)) :
    (replaceValue key value entries).map Prod.fst = entries.map Prod.fst := by
  induction entries with
  | nil => rfl
  | cons head rest ih =>
    simp only [replaceValue, List.map_cons, List.cons.injEq] at ih ⊢
    refine ⟨?_, ih⟩
    split
    · next h => exact h.symm
    · rfl

/-- Sets the value under a key; a present key keeps its position. -/
def insert (map : SequencedMap κ β) (key : κ) (value : β) : SequencedMap κ β :=
  if h : key ∈ map.entries.map Prod.fst then
    ⟨replaceValue key value map.entries, by rw [keys_replaceValue]; exact map.nodup⟩
  else
    ⟨map.entries ++ [(key, value)], by
      rw [List.map_append]
      exact SequencedSet.nodup_append_singleton map.nodup h⟩

/-- Removes a key; the others keep their order. -/
def erase (map : SequencedMap κ β) (key : κ) : SequencedMap κ β :=
  ⟨map.entries.filter fun entry ↦ !decide (entry.1 = key),
    map.nodup.sublist (List.filter_sublist.map Prod.fst)⟩

/-- The map of a list of entries; a later entry replaces the value of an earlier one. -/
def ofList (entries : List (κ × β)) : SequencedMap κ β :=
  entries.foldl (fun map entry ↦ map.insert entry.1 entry.2) empty

end SequencedMap

end CommitCoordinator
