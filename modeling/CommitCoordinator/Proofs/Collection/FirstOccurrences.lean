import CommitCoordinator.Pending
import Mathlib.Data.List.Induction

/-!
# Sequenced sets as lists without repeats

A sequenced set that takes in a list holds what is left of the list once every repeat of a name
is erased and its first occurrence kept. Pending partitions are such a set, so each operation on
them is an operation on lists followed by the erasure of repeats.
-/

namespace CommitCoordinator

section Lists

variable {α : Type} [DecidableEq α]

theorem eraseDups_eq_self {list : List α} (h : list.Nodup) : list.eraseDups = list := by
  induction list with
  | nil => rfl
  | cons x rest ih =>
    obtain ⟨hx, hrest⟩ := List.nodup_cons.1 h
    have hfilter : rest.filter (fun y ↦ !y == x) = rest := by
      apply List.filter_eq_self.2
      intro y hy
      simpa using fun hyx : y = x ↦ hx (hyx ▸ hy)
    rw [List.eraseDups_cons, hfilter, ih hrest]

theorem eraseDups_append_cons_of_mem {front : List α} {x : α} (hx : x ∈ front) (back : List α) :
    (front ++ x :: back).eraseDups = (front ++ back).eraseDups := by
  rw [List.eraseDups_append, List.eraseDups_append]
  simp [List.removeAll, hx]

end Lists

namespace SequencedSet

variable {α : Type} [DecidableEq α]

omit [DecidableEq α] in
theorem eq_of_elements {set other : SequencedSet α} (h : set.elements = other.elements) :
    set = other := by
  cases set
  cases other
  simpa using h

theorem insertAll_cons (set : SequencedSet α) (x : α) (xs : List α) :
    set.insertAll (x :: xs) = (set.insert x).insertAll xs := rfl

theorem insertAll_append (set : SequencedSet α) (xs ys : List α) :
    set.insertAll (xs ++ ys) = (set.insertAll xs).insertAll ys :=
  List.foldl_append

/-- The elements of a set that takes in a list: those it had, then the new ones in order. -/
theorem elements_insertAll (set : SequencedSet α) (xs : List α) :
    (set.insertAll xs).elements = (set.elements ++ xs).eraseDups := by
  induction xs generalizing set with
  | nil => rw [List.append_nil, eraseDups_eq_self set.nodup]; rfl
  | cons x rest ih =>
    rw [insertAll_cons, ih]
    by_cases hx : x ∈ set.elements
    · rw [insert_of_mem hx]
      exact (eraseDups_append_cons_of_mem hx rest).symm
    · rw [elements_insert_of_not_mem hx, List.append_assoc, List.singleton_append]

@[simp] theorem elements_ofList (xs : List α) : (ofList xs).elements = xs.eraseDups :=
  elements_insertAll empty xs

end SequencedSet

/-- Repeats that are erased early make no difference to those that are erased later. -/
theorem eraseDups_eraseDups_append {α : Type} [DecidableEq α] (front back : List α) :
    (front.eraseDups ++ back).eraseDups = (front ++ back).eraseDups := by
  calc
    (front.eraseDups ++ back).eraseDups
        = ((SequencedSet.ofList front).insertAll back).elements := by
      rw [SequencedSet.elements_insertAll, SequencedSet.elements_ofList]
    _ = (SequencedSet.ofList (front ++ back)).elements := by
      rw [SequencedSet.ofList, SequencedSet.ofList, SequencedSet.insertAll_append]
    _ = (front ++ back).eraseDups := SequencedSet.elements_ofList _

/-- Nor do repeats that are erased behind other names. -/
theorem eraseDups_append_eraseDups {α : Type} [DecidableEq α] (front back : List α) :
    (front ++ back.eraseDups).eraseDups = (front ++ back).eraseDups := by
  induction back using List.reverseRecOn with
  | nil => rfl
  | append_singleton back x ih =>
    by_cases hx : x ∈ back
    · have hback : (back ++ [x]).eraseDups = back.eraseDups := by
        simpa using eraseDups_append_cons_of_mem hx []
      rw [hback, ih, ← List.append_assoc,
        eraseDups_append_cons_of_mem (List.mem_append_right front hx), List.append_nil]
    · have hback : (back ++ [x]).eraseDups = back.eraseDups ++ [x] := by
        simp [List.eraseDups_append, List.eraseDups_cons, List.removeAll, hx]
      rw [hback, ← List.append_assoc, ← eraseDups_eraseDups_append, ih,
        eraseDups_eraseDups_append, List.append_assoc]

namespace Pending

@[simp] theorem nodup_toList (pending : Pending) : pending.toList.Nodup :=
  pending.partitions.nodup

@[simp] theorem toList_observeAll (pending : Pending) (partitions : List String) :
    (pending.observeAll partitions).toList = (pending.toList ++ partitions).eraseDups :=
  SequencedSet.elements_insertAll _ _

@[simp] theorem toList_drain (pending : Pending) : pending.drain.2.toList = [] := rfl

/-- Partitions that go back come before those observed since. -/
@[simp] theorem toList_giveBack (pending : Pending) (partitions : List String) :
    (pending.giveBack partitions).toList = (partitions ++ pending.toList).eraseDups := by
  calc
    (pending.giveBack partitions).toList
        = ((SequencedSet.ofList partitions).insertAll pending.toList).elements := rfl
    _ = (partitions.eraseDups ++ pending.toList).eraseDups := by
      rw [SequencedSet.elements_insertAll, SequencedSet.elements_ofList]
    _ = (partitions ++ pending.toList).eraseDups := eraseDups_eraseDups_append _ _

/-- Giving back all that a drain took out undoes the drain, whatever was observed in between. -/
theorem giveBack_observeAll_drain (pending : Pending) (observed : List String) :
    (pending.drain.2.observeAll observed).giveBack pending.drain.1 =
      pending.observeAll observed := by
  have hlist : ((pending.drain.2.observeAll observed).giveBack pending.drain.1).toList =
      (pending.observeAll observed).toList := by
    calc
      _ = (pending.drain.1 ++ observed.eraseDups).eraseDups := by
        rw [toList_giveBack, toList_observeAll, toList_drain, List.nil_append]
      _ = (pending.toList ++ observed).eraseDups := eraseDups_append_eraseDups _ _
      _ = (pending.observeAll observed).toList := (pending.toList_observeAll observed).symm
  exact congrArg (Pending.mk · pending.restoredWatermark) (SequencedSet.eq_of_elements hlist)

theorem giveBack_drain (pending : Pending) :
    pending.drain.2.giveBack pending.drain.1 = pending :=
  pending.giveBack_observeAll_drain []

/-- The partitions that stored snapshots hold for a coordinator that takes them up. -/
def storedNames (stored : List Snapshot) : List String :=
  (stored.getLast?.map Snapshot.pending).getD []

@[simp] theorem toList_restore (stored : List Snapshot) :
    (restore stored).toList = (storedNames stored).eraseDups := by
  unfold restore storedNames
  cases stored.getLast? with
  | none => rfl
  | some snapshot => exact SequencedSet.elements_ofList _

end Pending

end CommitCoordinator
