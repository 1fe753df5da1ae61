import CommitCoordinator.Proofs.Failover.Coverage
import CommitCoordinator.Proofs.Quorum.Arrivals
import Mathlib.Data.List.DropRight
import Mathlib.Data.Set.Card

/-!
# Counting distinct tasks

A quorum is asked about reports one after another. The round of a checkpoint is made of the
reports for it since the last one that completed it. What the quorum remembers of a checkpoint are
the tasks of its round, each once, so an answer depends on how many distinct tasks the round names
and on no report of another checkpoint.
-/

namespace CommitCoordinator

/-- A report that a quorum has counted, with its answer. -/
structure Counted where
  checkpoint : Int64
  task : UInt32
  completed : Bool
deriving DecidableEq

/-- The distinct tasks reported for a checkpoint since a report last completed it. -/
def roundTasks (counted : List Counted) (checkpoint : Int64) : Finset UInt32 :=
  (((counted.filter (·.checkpoint = checkpoint)).rtakeWhile (!·.completed)).map
    Counted.task).toFinset

theorem roundTasks_append_of_ne {counted : List Counted} {next : Counted} {checkpoint : Int64}
    (h : next.checkpoint ≠ checkpoint) :
    roundTasks (counted ++ [next]) checkpoint = roundTasks counted checkpoint := by
  rw [roundTasks, List.filter_append, List.filter_cons_of_neg (by simpa using h), List.filter_nil,
    List.append_nil, roundTasks]

theorem roundTasks_append_self (counted : List Counted) (next : Counted) :
    roundTasks (counted ++ [next]) next.checkpoint =
      if next.completed then ∅ else insert next.task (roundTasks counted next.checkpoint) := by
  rw [roundTasks, List.filter_append, List.filter_cons_of_pos (by simp), List.filter_nil,
    List.rtakeWhile_concat]
  cases next.completed with
  | true => rfl
  | false =>
    ext task
    simp [roundTasks]

namespace Quorum

/-- Counts a report after others, keeping all answers. -/
def count (state : Quorum × List Counted) (report : Int64 × UInt32) : Quorum × List Counted :=
  ((state.1.add report.1 report.2).1,
    state.2 ++ [⟨report.1, report.2, (state.1.add report.1 report.2).2⟩])

/-- Counts reports in turn, keeping all answers. -/
def countAll (quorum : Quorum) (reports : List (Int64 × UInt32)) : Quorum × List Counted :=
  reports.foldl count (quorum, [])

theorem countAll_append (quorum : Quorum) (reports : List (Int64 × UInt32))
    (report : Int64 × UInt32) :
    quorum.countAll (reports ++ [report]) = count (quorum.countAll reports) report :=
  List.foldl_concat count (quorum, []) report reports

/-- Every report is answered, in turn. -/
theorem reports_countAll (quorum : Quorum) (reports : List (Int64 × UInt32)) :
    (quorum.countAll reports).2.map (fun counted ↦ (counted.checkpoint, counted.task)) =
      reports := by
  induction reports using List.reverseRecOn with
  | nil => rfl
  | append_singleton reports report ih =>
    rw [countAll_append, count, List.map_append, ih]
    rfl

/-- What was answered before a report does not depend on the reports after it. -/
theorem countAll_split {quorum : Quorum} {reports : List (Int64 × UInt32)}
    {earlier later : List Counted} {next : Counted}
    (h : (quorum.countAll reports).2 = earlier ++ next :: later) :
    ∃ before, (quorum.countAll before).2 = earlier ∧
      next.completed = ((quorum.countAll before).1.add next.checkpoint next.task).2 := by
  induction reports using List.reverseRecOn generalizing later with
  | nil => simp [countAll] at h
  | append_singleton reports report ih =>
    rw [countAll_append, count] at h
    rcases List.eq_nil_or_concat later with rfl | ⟨later, last, rfl⟩
    · obtain ⟨hearlier, hnext⟩ := List.append_inj' h rfl
      cases hnext
      exact ⟨reports, hearlier, rfl⟩
    · rw [List.concat_eq_append, ← List.cons_append, ← List.append_assoc] at h
      exact ih (List.append_inj' h rfl).1

/-! ## What a quorum remembers -/

section Remembering

variable {quorum : Quorum} {checkpoint other : Int64} {task : UInt32}

theorem contains_add_of_completed (h : (quorum.add checkpoint task).2 = true) :
    (quorum.add checkpoint task).1.arrivals.contains checkpoint = false := by
  unfold add at h ⊢
  dsimp only at h ⊢
  split
  · rw [SequencedMap.contains_eq_isSome, SequencedMap.find?_erase_self, Option.isSome_none]
  · rename_i hawaited
    rw [if_neg hawaited] at h
    cases h

theorem contains_add_of_awaited (h : (quorum.add checkpoint task).2 = false) :
    (quorum.add checkpoint task).1.arrivals.contains checkpoint = true := by
  unfold add at h ⊢
  dsimp only at h ⊢
  split
  · rename_i hcompleted
    rw [if_pos hcompleted] at h
    cases h
  · rw [SequencedMap.contains_eq_isSome, SequencedMap.find?_insert_self, Option.isSome_some]

theorem contains_add_of_ne (h : other ≠ checkpoint) :
    (quorum.add checkpoint task).1.arrivals.contains other = quorum.arrivals.contains other := by
  unfold add
  dsimp only
  rw [SequencedMap.contains_eq_isSome, SequencedMap.contains_eq_isSome]
  split
  · rw [SequencedMap.find?_erase_of_ne _ h]
  · rw [SequencedMap.find?_insert_of_ne _ _ h]

end Remembering

/-- Whether a quorum remembers the tasks of every round, and only of rounds that have begun and are
not complete. -/
structure Remembers (quorum : Quorum) (counted : List Counted) : Prop where
  tasks (checkpoint : Int64) :
    (quorum.arrived checkpoint).elements.toFinset = roundTasks counted checkpoint
  begun (checkpoint : Int64) :
    quorum.arrivals.contains checkpoint = true ↔ (roundTasks counted checkpoint).Nonempty
  incomplete (checkpoint : Int64) : (roundTasks counted checkpoint).card < quorum.total.toNat

theorem remembers_create {total : UInt32} {quorum : Quorum} (h : create total = .ok quorum) :
    Remembers quorum [] := by
  have harrived := arrived_create h
  unfold create at h
  split at h
  · cases h
  · rename_i hzero
    cases h
    refine ⟨fun checkpoint ↦ ?_, fun checkpoint ↦ ?_, fun checkpoint ↦ ?_⟩
    · rw [harrived]
      rfl
    · exact ⟨fun hbegun ↦ absurd hbegun Bool.false_ne_true,
        fun hnonempty ↦ absurd rfl hnonempty.ne_empty⟩
    · exact Nat.pos_of_ne_zero fun hnat ↦ hzero (UInt32.toNat_inj.1 hnat)

namespace Remembers

variable {quorum : Quorum} {counted : List Counted} (h : Remembers quorum counted)
  (checkpoint : Int64) (task : UInt32)
include h

theorem mem_arrived : task ∈ (quorum.arrived checkpoint).elements ↔
    task ∈ roundTasks counted checkpoint := by
  rw [← h.tasks, List.mem_toFinset]

theorem toFinset_insert : ((quorum.arrived checkpoint).insert task).elements.toFinset =
    insert task (roundTasks counted checkpoint) := by
  ext other
  rw [List.mem_toFinset, SequencedSet.mem_elements_insert, h.mem_arrived, Finset.mem_insert,
    or_comm]

theorem length_insert : ((quorum.arrived checkpoint).insert task).elements.length =
    (insert task (roundTasks counted checkpoint)).card := by
  rw [← h.toFinset_insert, List.toFinset_card_of_nodup (SequencedSet.nodup _)]

/-- A report completes its checkpoint when it brings the round to all tasks. -/
theorem completes_iff : (quorum.add checkpoint task).2 = true ↔
    (roundTasks counted checkpoint).card < quorum.total.toNat ∧
      (insert task (roundTasks counted checkpoint)).card = quorum.total.toNat := by
  rw [add_snd_eq_true, h.mem_arrived, h.length_insert]
  have hincomplete := h.incomplete checkpoint
  by_cases hmem : task ∈ roundTasks counted checkpoint
  · rw [Finset.insert_eq_of_mem hmem]
    exact ⟨fun hcompleted ↦ absurd hmem hcompleted.1, fun hall ↦ by omega⟩
  · rw [Finset.card_insert_of_notMem hmem]
    exact ⟨fun hcompleted ↦ ⟨hincomplete, by omega⟩, fun hall ↦ ⟨hmem, hall.2.ge⟩⟩

/-- One more report keeps the memory of a quorum right. -/
theorem add : Remembers (quorum.add checkpoint task).1
    (counted ++ [⟨checkpoint, task, (quorum.add checkpoint task).2⟩]) := by
  have hround : roundTasks (counted ++ [⟨checkpoint, task, (quorum.add checkpoint task).2⟩])
      checkpoint =
        if (quorum.add checkpoint task).2 then ∅
        else insert task (roundTasks counted checkpoint) :=
    roundTasks_append_self counted _
  have hothers {other : Int64} (hother : other ≠ checkpoint) :
      roundTasks (counted ++ [⟨checkpoint, task, (quorum.add checkpoint task).2⟩]) other =
        roundTasks counted other :=
    roundTasks_append_of_ne hother.symm
  constructor
  case tasks =>
    intro other
    rcases eq_or_ne other checkpoint with rfl | hother
    · rw [hround]
      cases hcompleted : (quorum.add other task).2 with
      | true =>
        rw [arrived_add_of_completed _ _ _ hcompleted]
        rfl
      | false =>
        rw [arrived_add_of_awaited _ _ _ hcompleted, h.toFinset_insert]
        rfl
    · rw [arrived_add_of_ne _ _ _ hother, hothers hother, h.tasks]
  case begun =>
    intro other
    rcases eq_or_ne other checkpoint with rfl | hother
    · rw [hround]
      cases hcompleted : (quorum.add other task).2 with
      | true => simp [contains_add_of_completed hcompleted]
      | false => simp [contains_add_of_awaited hcompleted]
    · rw [contains_add_of_ne hother, hothers hother, h.begun]
  case incomplete =>
    intro other
    rw [total_add]
    rcases eq_or_ne other checkpoint with rfl | hother
    · rw [hround]
      cases hcompleted : (quorum.add other task).2 with
      | true => exact (Nat.zero_le _).trans_lt (h.incomplete other)
      | false =>
        have hawaited := (h.completes_iff other task).not.1 (Bool.eq_false_iff.1 hcompleted)
        have hstep := Finset.card_insert_le task (roundTasks counted other)
        have hincomplete := h.incomplete other
        simp only [Bool.false_eq_true, if_false]
        omega
    · rw [hothers hother]
      exact h.incomplete other

/-- The remembered checkpoints are those whose round has begun and is not complete. -/
theorem contains_iff : quorum.arrivals.contains checkpoint = true ↔
    1 ≤ (roundTasks counted checkpoint).card ∧
      (roundTasks counted checkpoint).card < quorum.total.toNat := by
  rw [h.begun, ← Finset.one_le_card]
  exact (and_iff_left (h.incomplete checkpoint)).symm

end Remembers

theorem remembers_countAll {quorum : Quorum} (h : Remembers quorum [])
    (reports : List (Int64 × UInt32)) :
    Remembers (quorum.countAll reports).1 (quorum.countAll reports).2 := by
  induction reports using List.reverseRecOn with
  | nil => exact h
  | append_singleton reports report ih =>
    rw [countAll_append]
    exact ih.add report.1 report.2

theorem total_countAll (quorum : Quorum) (reports : List (Int64 × UInt32)) :
    (quorum.countAll reports).1.total = quorum.total := by
  induction reports using List.reverseRecOn with
  | nil => rfl
  | append_singleton reports report ih => rw [countAll_append, count, total_add, ih]

theorem openCount_eq_encard (quorum : Quorum) :
    quorum.openCount = Set.encard {checkpoint | quorum.arrivals.contains checkpoint = true} := by
  have hkeys : {checkpoint | quorum.arrivals.contains checkpoint = true} =
      (quorum.arrivals.keys.toFinset : Set Int64) := by
    ext checkpoint
    simp [SequencedMap.contains]
  have hnodup : quorum.arrivals.keys.Nodup := quorum.arrivals.nodup
  rw [hkeys, Set.encard_coe_eq_coe_finsetCard, List.toFinset_card_of_nodup hnodup,
    SequencedMap.keys, List.length_map, openCount]

/-! ## Checkpoints do not interfere -/

/-- Quorums that remember the same of a checkpoint answer its reports alike and go on to remember
the same. -/
theorem add_congr {quorum twin : Quorum} {checkpoint : Int64} (htotal : quorum.total = twin.total)
    (harrived : quorum.arrived checkpoint = twin.arrived checkpoint) (task : UInt32) :
    (quorum.add checkpoint task).2 = (twin.add checkpoint task).2 ∧
      (quorum.add checkpoint task).1.arrived checkpoint =
        (twin.add checkpoint task).1.arrived checkpoint := by
  have hanswer : (quorum.add checkpoint task).2 = (twin.add checkpoint task).2 := by
    rw [Bool.eq_iff_iff, add_snd_eq_true, add_snd_eq_true, harrived, htotal]
  refine ⟨hanswer, ?_⟩
  cases hcompleted : (quorum.add checkpoint task).2 with
  | true =>
    rw [arrived_add_of_completed _ _ _ hcompleted,
      arrived_add_of_completed _ _ _ (hanswer.symm.trans hcompleted)]
  | false =>
    rw [arrived_add_of_awaited _ _ _ hcompleted,
      arrived_add_of_awaited _ _ _ (hanswer.symm.trans hcompleted), harrived]

theorem countAll_filter (quorum : Quorum) (checkpoint : Int64)
    (reports : List (Int64 × UInt32)) :
    (quorum.countAll reports).2.filter (·.checkpoint = checkpoint) =
        (quorum.countAll (reports.filter (·.1 = checkpoint))).2 ∧
      (quorum.countAll reports).1.arrived checkpoint =
        (quorum.countAll (reports.filter (·.1 = checkpoint))).1.arrived checkpoint := by
  induction reports using List.reverseRecOn with
  | nil => exact ⟨rfl, rfl⟩
  | append_singleton reports report ih =>
    obtain ⟨hanswers, harrived⟩ := ih
    rw [countAll_append, List.filter_append, count, List.filter_append, hanswers]
    rcases eq_or_ne report.1 checkpoint with rfl | hother
    · have htotal : (quorum.countAll reports).1.total =
          (quorum.countAll (reports.filter (·.1 = report.1))).1.total := by
        rw [total_countAll, total_countAll]
      obtain ⟨hanswer, hafter⟩ := add_congr htotal harrived report.2
      rw [List.filter_cons_of_pos (by simp), List.filter_cons_of_pos (by simp), List.filter_nil,
        List.filter_nil, countAll_append, count, hanswer, hafter]
      exact ⟨rfl, rfl⟩
    · rw [List.filter_cons_of_neg (by simpa using hother),
        List.filter_cons_of_neg (by simpa using hother), List.filter_nil, List.filter_nil,
        List.append_nil, List.append_nil, arrived_add_of_ne _ _ _ hother.symm]
      exact ⟨rfl, harrived⟩

/-- A report completes its checkpoint if it brings the distinct tasks of the round to all of them,
whatever is reported for other checkpoints; the checkpoints that are open are those whose round
has begun and is not complete. -/
theorem completes_at_last_distinct_task {total : UInt32} (htotal : 1 ≤ total) :
    ∃ quorum, create total = .ok quorum ∧ ∀ reports : List (Int64 × UInt32),
      (quorum.countAll reports).2.map (fun counted ↦ (counted.checkpoint, counted.task)) =
        reports ∧
      (∀ earlier next later, (quorum.countAll reports).2 = earlier ++ next :: later →
        (next.completed = true ↔
          (roundTasks earlier next.checkpoint).card < total.toNat ∧
            (insert next.task (roundTasks earlier next.checkpoint)).card = total.toNat)) ∧
      (∀ checkpoint, (quorum.countAll reports).2.filter (·.checkpoint = checkpoint) =
        (quorum.countAll (reports.filter (·.1 = checkpoint))).2) ∧
      (∀ checkpoint, (quorum.countAll reports).1.arrivals.contains checkpoint = true ↔
        1 ≤ (roundTasks (quorum.countAll reports).2 checkpoint).card ∧
          (roundTasks (quorum.countAll reports).2 checkpoint).card < total.toNat) ∧
      (quorum.countAll reports).1.openCount = Set.encard {checkpoint |
        1 ≤ (roundTasks (quorum.countAll reports).2 checkpoint).card ∧
          (roundTasks (quorum.countAll reports).2 checkpoint).card < total.toNat} := by
  have hpositive : total ≠ 0 := by
    rintro rfl
    exact absurd htotal (by decide)
  have hcreate : create total = .ok ⟨total, hpositive, .empty⟩ := dif_neg hpositive
  have hremembers := remembers_countAll (remembers_create hcreate)
  have hopen (reports : List (Int64 × UInt32)) (checkpoint : Int64) :=
    (hremembers reports).contains_iff checkpoint
  simp only [total_countAll] at hopen
  refine ⟨_, hcreate, fun reports ↦ ⟨reports_countAll _ _, ?_, fun checkpoint ↦ ?_, hopen reports,
    ?_⟩⟩
  · intro earlier next later hsplit
    obtain ⟨before, rfl, hanswer⟩ := countAll_split hsplit
    rw [hanswer, (hremembers before).completes_iff, total_countAll]
  · exact (countAll_filter _ checkpoint reports).1
  · rw [openCount_eq_encard]
    simp only [hopen reports]

/-- Of two writers, one reports two checkpoints and the other one of them, which it completes. -/
theorem completes_at_last_distinct_task_two : (1 : UInt32) ≤ 2 ∧
    ∃ quorum, create 2 = .ok quorum ∧
      (quorum.countAll [(5, 0), (7, 0), (5, 0), (5, 1)]).1.openCount = Set.encard {checkpoint |
        1 ≤ (roundTasks (quorum.countAll [(5, 0), (7, 0), (5, 0), (5, 1)]).2 checkpoint).card ∧
          (roundTasks (quorum.countAll [(5, 0), (7, 0), (5, 0), (5, 1)]).2 checkpoint).card <
            2} := by
  obtain ⟨quorum, hcreate, hcounts⟩ :=
    completes_at_last_distinct_task (by decide : (1 : UInt32) ≤ 2)
  exact ⟨by decide, quorum, hcreate, (hcounts _).2.2.2.2⟩

end Quorum

end CommitCoordinator
