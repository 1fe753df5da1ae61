import Mathlib.Data.List.Flatten
import Mathlib.Data.List.Nodup

/-!
# Positions in concatenations

An element that passes a test which no other element passes has one position only. The same holds
of the part of a concatenation that a given element is from, if no element repeats.
-/

namespace CommitCoordinator

variable {α β : Type}

theorem append_cons_inj_of_any {test : α → Bool} {front front' back back' : List α} {x y : α}
    (hfront : front.any test = false) (hback : back.any test = false) (hy : test y = true)
    (heq : front ++ x :: back = front' ++ y :: back') : front = front' ∧ x = y ∧ back = back' := by
  rcases List.append_eq_append_iff.1 heq with ⟨middle, rfl, hrest⟩ | ⟨middle, rfl, hrest⟩
  · cases middle with
    | nil => simpa using hrest
    | cons u rest =>
      obtain ⟨rfl, rfl⟩ := List.cons.inj hrest
      simp [hy] at hback
  · cases middle with
    | nil => simpa [eq_comm] using hrest
    | cons u rest =>
      obtain ⟨rfl, -⟩ := List.cons.inj hrest
      simp [hy] at hfront

/-- In a concatenation without repeats an element tells the position of the part it is from. -/
theorem append_cons_inj_of_nodup {f : α → List β} {front front' back back' : List α} {x y : α}
    {z : β} (h : ((front ++ x :: back).flatMap f).Nodup)
    (heq : front ++ x :: back = front' ++ y :: back') (hzx : z ∈ f x) (hzy : z ∈ f y) :
    front = front' ∧ x = y ∧ back = back' := by
  classical
  rw [List.flatMap_append, List.flatMap_cons, List.nodup_append', List.nodup_append'] at h
  obtain ⟨-, ⟨-, -, hback⟩, hfront⟩ := h
  have hnone {list : List α} (hlist : z ∉ list.flatMap f) : list.any (z ∈ f ·) = false := by
    simpa using hlist
  exact append_cons_inj_of_any (hnone fun hz ↦ hfront hz (List.mem_append_left _ hzx))
    (hnone fun hz ↦ hback hzx hz) (decide_eq_true hzy) heq

theorem eq_of_mem_flatMap {list : List α} {f : α → List β} (h : (list.flatMap f).Nodup) {x y : α}
    {z : β} (hx : x ∈ list) (hy : y ∈ list) (hzx : z ∈ f x) (hzy : z ∈ f y) : x = y := by
  obtain ⟨front, back, rfl⟩ := List.append_of_mem hx
  obtain ⟨front', back', heq⟩ := List.append_of_mem hy
  exact (append_cons_inj_of_nodup h heq hzx hzy).2.1

/-- A position in a concatenation lies in one of its parts. -/
theorem flatMap_eq_append_cons {f : α → List β} {list : List α} {front back : List β} {z : β}
    (h : list.flatMap f = front ++ z :: back) :
    ∃ earlier x later before after, list = earlier ++ x :: later ∧ f x = before ++ z :: after ∧
      front = earlier.flatMap f ++ before ∧ back = after ++ later.flatMap f := by
  induction list generalizing front with
  | nil =>
    rw [List.flatMap_nil] at h
    exact absurd h.symm (List.append_ne_nil_of_right_ne_nil _ (List.cons_ne_nil _ _))
  | cons x rest ih =>
    rw [List.flatMap_cons] at h
    rcases List.append_eq_append_iff.1 h with ⟨middle, rfl, hrest⟩ | ⟨middle, hx, hrest⟩
    · obtain ⟨earlier, y, later, before, after, rfl, hy, rfl, hback⟩ := ih hrest
      refine ⟨x :: earlier, y, later, before, after, rfl, hy, ?_, hback⟩
      rw [List.flatMap_cons, List.append_assoc]
    · cases middle with
      | nil =>
        have hempty : rest.flatMap f = [] ++ z :: back := hrest.symm
        obtain ⟨earlier, y, later, before, after, rfl, hy, hbefore, hback⟩ := ih hempty
        refine ⟨x :: earlier, y, later, before, after, rfl, hy, ?_, hback⟩
        rw [List.flatMap_cons, List.append_assoc, ← hbefore, List.append_nil, hx, List.append_nil]
      | cons u middle =>
        obtain ⟨rfl, rfl⟩ := List.cons.inj hrest
        exact ⟨[], x, rest, front, middle, rfl, hx, rfl, rfl⟩

end CommitCoordinator
