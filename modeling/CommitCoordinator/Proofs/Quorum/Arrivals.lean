import CommitCoordinator.Proofs.Collection.Lookup
import CommitCoordinator.Quorum
import Mathlib.Data.Finset.Card

/-!
# The tasks that have reported a checkpoint

A report adds its task to those of its own checkpoint and leaves all other checkpoints alone. The
report that completes a checkpoint is the first of its task in the present count, and with it every
task has reported; the count of the checkpoint is then forgotten.
-/

namespace CommitCoordinator

theorem SequencedSet.mem_elements_insert {α : Type} [DecidableEq α] {set : SequencedSet α}
    {x y : α} : y ∈ (set.insert x).elements ↔ y ∈ set.elements ∨ y = x := by
  by_cases h : x ∈ set.elements
  · rw [insert_of_mem h]
    exact ⟨.inl, fun hmem ↦ hmem.elim id fun heq ↦ heq ▸ h⟩
  · rw [elements_insert_of_not_mem h, List.mem_append, List.mem_singleton]

/-- Distinct numbers below a bound are all of them if there are enough. -/
theorem mem_of_nodup_of_le_length {tasks : List UInt32} {total task : UInt32}
    (hnodup : tasks.Nodup) (hbelow : ∀ other ∈ tasks, other < total)
    (henough : total.toNat ≤ tasks.length) (htask : task < total) : task ∈ tasks := by
  have hsubset : (tasks.map UInt32.toNat).toFinset ⊆ Finset.range total.toNat := by
    intro n hn
    obtain ⟨other, hother, rfl⟩ := List.mem_map.1 (List.mem_toFinset.1 hn)
    exact Finset.mem_range.2 (UInt32.lt_iff_toNat_lt.1 (hbelow other hother))
  have hdistinct : (tasks.map UInt32.toNat).Nodup :=
    hnodup.map fun _ _ ↦ UInt32.toNat_inj.1
  have hcard : (tasks.map UInt32.toNat).toFinset.card = tasks.length := by
    rw [List.toFinset_card_of_nodup hdistinct, List.length_map]
  have hall : (tasks.map UInt32.toNat).toFinset = Finset.range total.toNat := by
    apply Finset.eq_of_subset_of_card_le hsubset
    rw [Finset.card_range, hcard]
    exact henough
  have hmem : task.toNat ∈ (tasks.map UInt32.toNat).toFinset := by
    rw [hall]
    exact Finset.mem_range.2 (UInt32.lt_iff_toNat_lt.1 htask)
  obtain ⟨other, hother, hsame⟩ := List.mem_map.1 (List.mem_toFinset.1 hmem)
  rw [← UInt32.toNat_inj.1 hsame]
  exact hother

namespace Quorum

theorem arrived_create {total : UInt32} {quorum : Quorum} (h : create total = .ok quorum)
    (checkpoint : Int64) : quorum.arrived checkpoint = .empty := by
  unfold create at h
  split at h
  · cases h
  · cases h
    rfl

variable (quorum : Quorum) (checkpoint : Int64) (task : UInt32)

/-- A report completes its checkpoint if its task is new and the last that was awaited. -/
theorem add_snd_eq_true : (quorum.add checkpoint task).2 = true ↔
    task ∉ (quorum.arrived checkpoint).elements ∧
      quorum.total.toNat ≤ ((quorum.arrived checkpoint).insert task).elements.length := by
  have htest : (!(quorum.arrived checkpoint).contains task &&
        quorum.total.toNat ≤ ((quorum.arrived checkpoint).insert task).size) = true ↔
      task ∉ (quorum.arrived checkpoint).elements ∧
        quorum.total.toNat ≤ ((quorum.arrived checkpoint).insert task).elements.length := by
    rw [Bool.and_eq_true, Bool.not_eq_true', decide_eq_true_iff, SequencedSet.contains,
      decide_eq_false_iff_not]
    rfl
  rw [← htest, add]
  split
  · rename_i hcompleted
    exact ⟨fun _ ↦ hcompleted, fun _ ↦ rfl⟩
  · rename_i hawaited
    exact ⟨nofun, fun hcompleted ↦ absurd hcompleted hawaited⟩

theorem arrived_add_of_completed (h : (quorum.add checkpoint task).2 = true) :
    (quorum.add checkpoint task).1.arrived checkpoint = .empty := by
  unfold add at h ⊢
  dsimp only at h ⊢
  split
  · rw [arrived, SequencedMap.find?_erase_self, Option.getD_none]
  · rename_i hawaited
    rw [if_neg hawaited] at h
    cases h

theorem arrived_add_of_awaited (h : (quorum.add checkpoint task).2 = false) :
    (quorum.add checkpoint task).1.arrived checkpoint =
      (quorum.arrived checkpoint).insert task := by
  unfold add at h ⊢
  dsimp only at h ⊢
  split
  · rename_i hcompleted
    rw [if_pos hcompleted] at h
    cases h
  · rw [arrived, SequencedMap.find?_insert_self, Option.getD_some]

theorem arrived_add_of_ne {other : Int64} (h : other ≠ checkpoint) :
    (quorum.add checkpoint task).1.arrived other = quorum.arrived other := by
  unfold add
  dsimp only
  split
  · rw [arrived, SequencedMap.find?_erase_of_ne _ h, arrived]
  · rw [arrived, SequencedMap.find?_insert_of_ne _ _ h, arrived]

/-- With the report that completes a checkpoint every task has reported it. -/
theorem mem_arrived_of_completed (h : (quorum.add checkpoint task).2 = true)
    (hbelow : ∀ other ∈ (quorum.arrived checkpoint).elements, other < quorum.total)
    (htask : task < quorum.total) {other : UInt32} (hother : other < quorum.total) :
    other ∈ (quorum.arrived checkpoint).elements ∨ other = task := by
  obtain ⟨-, henough⟩ := (quorum.add_snd_eq_true checkpoint task).1 h
  apply SequencedSet.mem_elements_insert.1
  refine mem_of_nodup_of_le_length (SequencedSet.nodup _) (fun present hpresent ↦ ?_) henough
    hother
  rcases SequencedSet.mem_elements_insert.1 hpresent with hpresent | rfl
  · exact hbelow present hpresent
  · exact htask

end Quorum

end CommitCoordinator
