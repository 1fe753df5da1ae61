/-!
# Sets and maps in the order of their names

Names are compared character by character, which for text is the order of its UTF-8 bytes.
A sorted collection is a list in strictly ascending order, so equal contents are equal values.
-/

namespace CommitCoordinator

/-- A finite set of names in strictly ascending order. -/
structure SortedSet where
  elements : List String
  ascending : elements.Pairwise (· < ·)
deriving DecidableEq

/-- A finite map from names to values, its entries in strictly ascending order of the names. -/
structure SortedMap (β : Type) where
  entries : List (String × β)
  ascending : entries.Pairwise fun a b ↦ a.1 < b.1
deriving DecidableEq

/-- Places an entry before the first greater name, or instead of the equal one. -/
def insertSorted {β : Type} (name : String) (value : β) :
    List (String × β) → List (String × β)
  | [] => [(name, value)]
  | entry :: rest =>
    if name < entry.1 then (name, value) :: entry :: rest
    else if name = entry.1 then (name, value) :: rest
    else entry :: insertSorted name value rest

theorem mem_insertSorted {β : Type} {name : String} {value : β} {entry : String × β}
    {entries : List (String × β)} (h : entry ∈ insertSorted name value entries) :
    entry = (name, value) ∨ entry ∈ entries := by
  induction entries with
  | nil => simpa [insertSorted] using h
  | cons head rest ih =>
    rw [insertSorted] at h
    split at h
    · simpa using h
    · split at h
      · simp only [List.mem_cons] at h ⊢
        rcases h with h | h
        · exact .inl h
        · exact .inr (.inr h)
      · simp only [List.mem_cons] at h ⊢
        rcases h with h | h
        · exact .inr (.inl h)
        · rcases ih h with h | h
          · exact .inl h
          · exact .inr (.inr h)

theorem lt_of_not_lt_of_ne {a b : String} (h : ¬ a < b) (h' : a ≠ b) : b < a := by
  rcases Std.lt_trichotomy a b with hlt | heq | hgt
  · exact absurd hlt h
  · exact absurd heq h'
  · exact hgt

theorem pairwise_insertSorted {β : Type} (name : String) (value : β)
    {entries : List (String × β)} (h : entries.Pairwise fun a b ↦ a.1 < b.1) :
    (insertSorted name value entries).Pairwise fun a b ↦ a.1 < b.1 := by
  induction entries with
  | nil => simp [insertSorted]
  | cons head rest ih =>
    rw [List.pairwise_cons] at h
    rw [insertSorted]
    split
    · next hlt =>
      refine List.pairwise_cons.2 ⟨?_, List.pairwise_cons.2 h⟩
      intro entry hmem
      rcases List.mem_cons.1 hmem with rfl | hmem
      · exact hlt
      · exact String.lt_trans hlt (h.1 entry hmem)
    · next hnlt =>
      split
      · next heq => exact List.pairwise_cons.2 ⟨fun entry hmem ↦ heq ▸ h.1 entry hmem, h.2⟩
      · next hne =>
        refine List.pairwise_cons.2 ⟨?_, ih h.2⟩
        intro entry hmem
        rcases mem_insertSorted hmem with rfl | hmem
        · exact lt_of_not_lt_of_ne hnlt hne
        · exact h.1 entry hmem

namespace SortedMap

variable {β : Type}

def empty : SortedMap β := ⟨[], .nil⟩

instance : Inhabited (SortedMap β) := ⟨empty⟩
instance : EmptyCollection (SortedMap β) := ⟨empty⟩

/-- The value under a name. -/
def find? (map : SortedMap β) (name : String) : Option β :=
  (map.entries.find? fun entry ↦ entry.1 = name).map Prod.snd

/-- Sets the value under a name, which may be new. -/
def insert (map : SortedMap β) (name : String) (value : β) : SortedMap β :=
  ⟨insertSorted name value map.entries, pairwise_insertSorted name value map.ascending⟩

/-- The map of a list of entries; a later entry replaces an earlier one of the same name. -/
def ofList (entries : List (String × β)) : SortedMap β :=
  entries.foldl (fun map entry ↦ map.insert entry.1 entry.2) empty

end SortedMap

namespace SortedSet

def empty : SortedSet := ⟨[], .nil⟩

instance : Inhabited SortedSet := ⟨empty⟩
instance : EmptyCollection SortedSet := ⟨empty⟩

/-- Places a name before the first greater one unless it is there. -/
def insertName (name : String) : List String → List String
  | [] => [name]
  | head :: rest =>
    if name < head then name :: head :: rest
    else if name = head then head :: rest
    else head :: insertName name rest

theorem mem_insertName {name other : String} {names : List String}
    (h : other ∈ insertName name names) : other = name ∨ other ∈ names := by
  induction names with
  | nil => simpa [insertName] using h
  | cons head rest ih =>
    rw [insertName] at h
    split at h
    · simpa using h
    · split at h
      · exact .inr h
      · simp only [List.mem_cons] at h ⊢
        rcases h with h | h
        · exact .inr (.inl h)
        · rcases ih h with h | h
          · exact .inl h
          · exact .inr (.inr h)

theorem pairwise_insertName (name : String) {names : List String}
    (h : names.Pairwise (· < ·)) : (insertName name names).Pairwise (· < ·) := by
  induction names with
  | nil => simp [insertName]
  | cons head rest ih =>
    rw [List.pairwise_cons] at h
    rw [insertName]
    split
    · next hlt =>
      refine List.pairwise_cons.2 ⟨?_, List.pairwise_cons.2 h⟩
      intro other hmem
      rcases List.mem_cons.1 hmem with rfl | hmem
      · exact hlt
      · exact String.lt_trans hlt (h.1 other hmem)
    · next hnlt =>
      split
      · exact List.pairwise_cons.2 h
      · next hne =>
        refine List.pairwise_cons.2 ⟨?_, ih h.2⟩
        intro other hmem
        rcases mem_insertName hmem with rfl | hmem
        · exact lt_of_not_lt_of_ne hnlt hne
        · exact h.1 other hmem

def insert (set : SortedSet) (name : String) : SortedSet :=
  ⟨insertName name set.elements, pairwise_insertName name set.ascending⟩

/-- The set of the names in a list. -/
def ofList (names : List String) : SortedSet :=
  names.foldl insert empty

end SortedSet

end CommitCoordinator
