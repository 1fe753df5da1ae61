import CommitCoordinator.Proofs.Catalog.Share

/-!
# Catalogs that are alike

Two catalogs are alike if they hold the same document up to identifiers of snapshots, which are
related one by one, and the times of manifests. Commits that are alike keep them so.
-/

namespace CommitCoordinator

namespace Catalog

section Alike

variable (R : Uuid → Uuid → Prop)

/-- Whether two catalogs hold the same document up to the identifiers of snapshots and the times of
manifests. -/
structure Alike (catalog other : Catalog) : Prop where
  tables : catalog.tables = other.tables
  partitions : ∀ tableId, Option.Rel (VersionsAlike R) (catalog.partitions.find? tableId)
    (other.partitions.find? tableId)
  manifests : List.Forall₂ (fun entry entry' ↦ R entry.1 entry'.1 ∧ entry.2.Alike R entry'.2)
    catalog.manifests.entries other.manifests.entries

end Alike

variable {R : Uuid → Uuid → Prop} {before after before' after' : Catalog}

/-- A catalog is like itself if all its identifiers may stand for themselves. -/
theorem Alike.refl (hrefl : ∀ id, R id id) (catalog : Catalog) : catalog.Alike R catalog where
  tables := rfl
  partitions tableId := by
    have hids (ids : List Uuid) : List.Forall₂ R ids ids :=
      List.forall₂_same.2 fun id _ ↦ hrefl id
    cases catalog.partitions.find? tableId with
    | none => exact .none
    | some versions =>
      refine .some fun partition ↦ ?_
      cases versions.find? partition with
      | none => exact .none
      | some version => exact .some ⟨rfl, rfl, hids _⟩
  manifests := List.forall₂_same.2 fun entry _ ↦
    ⟨hrefl _, hrefl _, rfl, rfl, rfl, rfl⟩

theorem Alike.versions (h : before.Alike R before') (tableId : String) :
    VersionsAlike R (before.versions tableId) (before'.versions tableId) := by
  have hpartitions := h.partitions tableId
  unfold Catalog.versions
  generalize before.partitions.find? tableId = versions, before'.partitions.find? tableId = others
    at hpartitions
  cases hpartitions with
  | none => exact fun _ ↦ .none
  | some hversions => exact hversions

/-- Catalogs that are alike know the same tables. -/
theorem Alike.lookup_eq (h : before.Alike R before') (name : String) :
    before.lookup name = before'.lookup name := by
  rw [lookup, lookup, table?, table?, h.tables]

/-- What a commit with new snapshots leaves in the catalog. -/
theorem Commits.parts_eq {payload : Payload} (h : before.Commits payload after)
    (hnodup : payload.snapshots.Nodup) (hlacks : before.Lacks payload.snapshots) :
    after.tables = before.tables ∧
      after.partitions = before.partitions.insert payload.request.table.id
        (payload.request.partitions.foldl (advance true .append)
          (before.versions payload.request.table.id)) ∧
      after.manifests.entries = before.manifests.entries ++
        payload.manifests.map fun manifest ↦ (manifest.id, manifest) := by
  obtain ⟨appended, happend, rfl⟩ := h
  obtain ⟨-, rfl⟩ := append?_eq_some happend
  exact ⟨rfl, rfl, entries_insertManifests hnodup fun id hid ↦ (hlacks id hid).2⟩

/-- Catalogs that are alike stay so after commits that are alike. -/
theorem Alike.commits (h : before.Alike R before') {payload other : Payload}
    (hpayload : payload.Alike R other)
    (hcommits : before.Commits payload after) (hnodup : payload.snapshots.Nodup)
    (hlacks : before.Lacks payload.snapshots)
    (hcommits' : before'.Commits other after') (hnodup' : other.snapshots.Nodup)
    (hlacks' : before'.Lacks other.snapshots) : after.Alike R after' := by
  obtain ⟨htables, hpartitions, hmanifests⟩ := hcommits.parts_eq hnodup hlacks
  obtain ⟨htables', hpartitions', hmanifests'⟩ := hcommits'.parts_eq hnodup' hlacks'
  constructor
  · rw [htables, htables', h.tables]
  · intro tableId
    rw [hpartitions, hpartitions', hpayload.request.table]
    by_cases htable : tableId = other.request.table.id
    · rw [htable, SortedMap.find?_insert_self, SortedMap.find?_insert_self]
      exact .some ((h.versions _).foldl_advance hpayload.request.partitions)
    · rw [SortedMap.find?_insert_of_ne _ _ htable, SortedMap.find?_insert_of_ne _ _ htable]
      exact h.partitions tableId
  · rw [hmanifests, hmanifests']
    refine List.rel_append h.manifests ?_
    rw [List.forall₂_map_left_iff, List.forall₂_map_right_iff]
    exact hpayload.manifests.imp fun _ _ hmanifest ↦ ⟨hmanifest.id, hmanifest⟩

end Catalog

end CommitCoordinator
