import CommitCoordinator.Proofs.Storage.Replacing

/-!
# Programs that only look

A program may fail, and it may look at a state without changing it. One that looks at many things in
turn finds what it would have found at once.
-/

namespace CommitCoordinator

open Storage

theorem except_bind_eq_ok {ε α β : Type} {x : Except ε α} {f : α → Except ε β} {value : β} :
    x >>= f = .ok value ↔ ∃ a, x = .ok a ∧ f a = .ok value := by
  cases x with
  | error cause => exact ⟨nofun, nofun⟩
  | ok a => exact ⟨fun h ↦ ⟨a, rfl, h⟩, fun ⟨_, ha, h⟩ ↦ Except.ok.inj ha ▸ h⟩

section Readings

variable {σ α β : Type} {s : σ}

theorem mapM_of_readings {f : α → StateM σ β} {g : α → β} (h : ∀ a, f a s = (g a, s))
    (as : List α) : as.mapM f s = (as.map g, s) := by
  induction as with
  | nil => rfl
  | cons a rest ih => rw [List.mapM_cons, state_bind, h, state_bind, ih]; rfl

theorem filterAuxM_of_readings {p : α → StateM σ Bool} {q : α → Bool}
    (h : ∀ a, p a s = (q a, s)) (as kept : List α) :
    as.filterAuxM p kept s = ((as.filter q).reverse ++ kept, s) := by
  induction as generalizing kept with
  | nil => rfl
  | cons a rest ih =>
    rw [List.filterAuxM, state_bind, h, ih, List.filter_cons]
    cases q a <;> simp

theorem filterM_of_readings {p : α → StateM σ Bool} {q : α → Bool} (h : ∀ a, p a s = (q a, s))
    (as : List α) : as.filterM p s = (as.filter q, s) := by
  rw [List.filterM, state_bind, filterAuxM_of_readings h, List.append_nil]
  change ((as.filter q).reverse.reverse, s) = _
  rw [List.reverse_reverse]

end Readings

end CommitCoordinator
