import CommitCoordinator.Catalog.Memory
import CommitCoordinator.Proofs.Catalog.Agreement
import CommitCoordinator.Proofs.Router.Grounds

/-!
# Surroundings in memory

A desk has all that an operator works with in memory: one catalog, one store of snapshots and
numbers for identifiers. It supports an operator as files do, without any failures.
-/

namespace CommitCoordinator

open Dialogue Storage

/-- A catalog and a store in memory, and the number of the next identifier. -/
structure Desk where
  catalog : Catalog
  snapshots : List Snapshot
  drawn : Nat

namespace Desk

instance : MonadStateOf Catalog (StateM Desk) where
  get := fun desk ↦ (desk.catalog, desk)
  set catalog := fun desk ↦ ((), { desk with catalog })
  modifyGet f := fun desk ↦ ((f desk.catalog).1, { desk with catalog := (f desk.catalog).2 })

instance : MonadStateOf (List Snapshot) (StateM Desk) where
  get := fun desk ↦ (desk.snapshots, desk)
  set snapshots := fun desk ↦ ((), { desk with snapshots })
  modifyGet f := fun desk ↦
    ((f desk.snapshots).1, { desk with snapshots := (f desk.snapshots).2 })

instance : MonadMetrics (StateM Desk) := ⟨fun _ ↦ pure ()⟩

instance : MonadFresh (StateM Desk) :=
  ⟨fun desk ↦ (.ofNumber desk.drawn, { desk with drawn := desk.drawn + 1 })⟩

instance : MonadClock (StateM Desk) := ⟨pure 0⟩

/-- The catalog in memory, and directories in which the same is always found. -/
def servicesFinding (found : String → Except StorageError (List Entry)) : Services (StateM Desk) :=
  ⟨MemoryCatalog.client, fun directory ↦ pure (found directory)⟩

/-- The catalog in memory, and directories that are all empty. -/
def services : Services (StateM Desk) :=
  servicesFinding fun _ ↦ .ok []

def grounds : Grounds Desk where
  sound _ := True
  catalog := Desk.catalog
  stored desk := some desk.snapshots

/-- How calls are answered there. -/
def answer (found : String → Except StorageError (List Entry)) (desk : Desk) :
    (call : Call) → call.Answer × Desk
  | .lookup name => (desk.catalog.lookup name, desk)
  | .append request keep mode =>
    (.ok (desk.catalog.append? request keep mode).isSome,
      { desk with catalog := (desk.catalog.append? request keep mode).getD desk.catalog })
  | .insert manifests => (.ok (), { desk with catalog := desk.catalog.insertManifests manifests })
  | .list directory => (found directory, desk)
  | .load => (.ok desk.snapshots, desk)
  | .store snapshots => (.ok (), { desk with snapshots })
  | .emit _ => ((), desk)
  | .freshId => (.ofNumber desk.drawn, { desk with drawn := desk.drawn + 1 })
  | .currentTime => (0, desk)

theorem answering_eq (found : String → Except StorageError (List Entry)) (desk : Desk)
    (call : Call) : (answering (servicesFinding found) memoryStore call : StateM Desk _) desk =
      desk.answer found call := by
  cases call with
  | append request keep mode =>
    change (MemoryCatalog.append request keep mode : StateM Desk _) desk = _
    rw [MemoryCatalog.append, Storage.state_bind]
    dsimp only [getThe, MonadStateOf.get]
    rw [answer]
    cases desk.catalog.append? request keep mode <;> rfl
  | _ => rfl

theorem supports (found : String → Except StorageError (List Entry)) :
    grounds.Supports (servicesFinding found) memoryStore := by
  rintro s after ⟨call, given⟩ - htook -
  have hanswer : s.answer found call = (given, after) :=
    (answering_eq found s call).symm.trans htook
  obtain ⟨rfl, rfl⟩ : (s.answer found call).1 = given ∧ (s.answer found call).2 = after := by
    rw [hanswer]
    exact ⟨rfl, rfl⟩
  cases call with
  | lookup name => exact ⟨trivial, ⟨rfl, rfl⟩, rfl⟩
  | append request keep mode => exact ⟨trivial, ⟨rfl, rfl⟩, rfl⟩
  | insert manifests => exact ⟨trivial, ⟨rfl, rfl⟩, rfl⟩
  | load => exact ⟨trivial, rfl, rfl, rfl⟩
  | _ => exact ⟨trivial, rfl, rfl⟩

def workplace : Workplace Desk :=
  ⟨grounds, services, memoryStore, supports _⟩

end Desk

/-! ## A table with one writer -/

/-- A table whose only writer has one partition to commit. -/
def ordersOperator : Operator :=
  .new ((Coordinator.new "orders" (.ofLocation "/orders")).start .empty)

def ordersReport : HostEvent :=
  .record ⟨5, 0, 1, "orders", "", .ofList ["a"]⟩

/-- The desk before the report, with snapshots of some checkpoint. -/
def ordersDesk (snapshots : List Snapshot) : Desk :=
  ⟨leakedTables, snapshots, 0⟩

end CommitCoordinator
