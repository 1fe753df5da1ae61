import CommitCoordinator.Proofs.Coordinator.Mirror
import CommitCoordinator.Proofs.Failover.Coverage

/-!
# Surroundings that can be relied on

What an operator does depends on a catalog and on a store. Its surroundings support it if the
catalog answers as its contents tell and the store returns what it took, as long as neither fails.
Other operators in the same surroundings use the same catalog and leave the store alone.
-/

namespace CommitCoordinator

open Dialogue

/-- Whether a store, which may hold something that cannot be read, does what it is asked for. -/
def Keeps (before : Option (List Snapshot)) : Exchange → Option (List Snapshot) → Prop
  | ⟨.load, .ok stored⟩, after => before = some stored ∧ after = before
  | ⟨.store snapshots, .ok ()⟩, after => after = some snapshots
  | _, after => after = before

/-- Whether a store is left alone. -/
def Spares (before : Option (List Snapshot)) (_ : Exchange) (after : Option (List Snapshot)) :
    Prop :=
  after = before

theorem Keeps.spares {before after : Option (List Snapshot)} {exchange : Exchange}
    (h : Keeps before exchange after) (hstore : exchange.isStore = false) :
    Spares before exchange after := by
  obtain ⟨call, answer⟩ := exchange
  cases call with
  | load =>
    cases answer with
    | error cause => exact h
    | ok stored => exact h.2
  | store snapshots => cases hstore
  | _ => exact h

/-- A catalog and what a store holds, as far as states tell of them. -/
structure Grounds (σ : Type) where
  /-- The states in which the surroundings can be relied on. -/
  sound : σ → Prop
  catalog : σ → Catalog
  /-- What the store holds, absent if it cannot be read. -/
  stored : σ → Option (List Snapshot)

namespace Grounds

variable {σ : Type} [MonadMetrics (StateM σ)] [MonadFresh (StateM σ)] [MonadClock (StateM σ)]
  (grounds : Grounds σ)

/-- Whether an exchange is served from the catalog and does to the store what the effect tells. -/
structure Honors (effect : Option (List Snapshot) → Exchange → Option (List Snapshot) → Prop)
    (s : σ) (exchange : Exchange) (after : σ) : Prop where
  sound : grounds.sound after
  granted : (grounds.catalog s).Grants exchange (grounds.catalog after)
  effect : effect (grounds.stored s) exchange (grounds.stored after)

/-- Whether calls that do not fail are honored. -/
def Bears (effect : Option (List Snapshot) → Exchange → Option (List Snapshot) → Prop)
    (services : Services (StateM σ)) (store : SnapshotStore (StateM σ)) : Prop :=
  ∀ (s after : σ) (exchange : Exchange), grounds.sound s →
    Took (answering services store) s exchange after → exchange.isFailure = false →
      grounds.Honors effect s exchange after

/-- Whether an operator can work with the catalog and the store. -/
abbrev Supports (services : Services (StateM σ)) (store : SnapshotStore (StateM σ)) : Prop :=
  grounds.Bears Keeps services store

/-- Whether another operator can work with the catalog and has a store of its own. -/
abbrev Admits (services : Services (StateM σ)) (store : SnapshotStore (StateM σ)) : Prop :=
  grounds.Bears Spares services store

variable {grounds} {effect : Option (List Snapshot) → Exchange → Option (List Snapshot) → Prop}
  {services : Services (StateM σ)} {store : SnapshotStore (StateM σ)} {s after : σ}
  {transcript : List Exchange}

theorem Bears.along (h : grounds.Bears effect services store) (hsound : grounds.sound s)
    (halong : Along (Took (answering services store)) s transcript after)
    (hfailure : ∀ exchange ∈ transcript, exchange.isFailure = false) :
    grounds.sound after ∧ Along Catalog.Grants (grounds.catalog s) transcript
        (grounds.catalog after) ∧
      Along effect (grounds.stored s) transcript (grounds.stored after) := by
  induction transcript generalizing s with
  | nil =>
    obtain rfl : after = s := halong
    exact ⟨hsound, rfl, rfl⟩
  | cons exchange rest ih =>
    obtain ⟨between, htook, hrest⟩ := halong
    obtain ⟨hbetween, hgrants, heffect⟩ :=
      h s between exchange hsound htook (hfailure exchange List.mem_cons_self)
    obtain ⟨hafter, hcatalog, hstored⟩ := ih hbetween hrest fun other hother ↦
      hfailure other (List.mem_cons_of_mem _ hother)
    exact ⟨hafter, ⟨_, hgrants, hcatalog⟩, ⟨_, heffect, hstored⟩⟩

end Grounds

theorem eq_of_along_spares {before after : Option (List Snapshot)} {transcript : List Exchange}
    (h : Along Spares before transcript after) : after = before :=
  h.eq_of_idle fun _ _ _ _ hspares ↦ hspares

/-- A store keeps what it holds while nothing is stored. -/
theorem eq_of_along_keeps {before after : Option (List Snapshot)} {transcript : List Exchange}
    (h : Along Keeps before transcript after)
    (hstore : transcript.any Exchange.isStore = false) : after = before :=
  h.eq_of_idle fun exchange hexchange _ _ hkeeps ↦ by
    have hnone := List.any_eq_false.1 hstore exchange hexchange
    exact hkeeps.spares (Bool.eq_false_iff.2 hnone)

/-- Surroundings of an operator with what it works with there. -/
structure Workplace (σ : Type) [MonadMetrics (StateM σ)] [MonadFresh (StateM σ)]
    [MonadClock (StateM σ)] extends Grounds σ where
  services : Services (StateM σ)
  store : SnapshotStore (StateM σ)
  supports : toGrounds.Supports services store

/-! ## New snapshots -/

/-- A coordinator brings only what it draws, so what is drawn later remains new. -/
theorem Catalog.Unseen.of_balanced {before after : Catalog} {transcript rest : List Exchange}
    (h : before.Unseen (transcript ++ rest)) (hbalanced : Balanced transcript)
    (halong : Along Catalog.Grants before transcript after) : after.Unseen rest := by
  obtain ⟨hnodup, hlacks⟩ := h
  rw [List.flatMap_append] at hnodup hlacks
  obtain ⟨-, hlater, hdisjoint⟩ := List.nodup_append'.1 hnodup
  refine ⟨hlater, .along halong (hlacks.mono (List.subset_append_right _ _)) fun id hid hnamed ↦ ?_⟩
  obtain (hnone | ⟨request, hnone, -⟩) | hdrawn :=
    (hbalanced ⟨[], none⟩ rfl).1.named_subset hnamed
  · cases hnone
  · cases hnone
  · exact hdisjoint hdrawn hid

end CommitCoordinator
