import CommitCoordinator.Catalog.Document
import CommitCoordinator.Proofs.Collection.Lookup
import Mathlib.Data.List.Flatten

/-!
# How requests change chains and manifests

An accepted request that keeps the present snapshots adds its own to the ends of their chains and
changes nothing else. Manifests are stored under their snapshots and leave the chains alone.
-/

namespace CommitCoordinator

/-- The snapshots that parts of requests bring to a partition of a table. -/
def snapshotsFor (parts : List PartitionAppend) (tableId partition : String) : List Uuid :=
  (parts.filter fun part ↦ part.tableId = tableId ∧ part.partition = partition).flatMap
    PartitionAppend.snapshots

@[simp] theorem snapshotsFor_append (front back : List PartitionAppend)
    (tableId partition : String) :
    snapshotsFor (front ++ back) tableId partition =
      snapshotsFor front tableId partition ++ snapshotsFor back tableId partition := by
  rw [snapshotsFor, List.filter_append, List.flatMap_append]
  rfl

theorem mem_snapshotsFor {parts : List PartitionAppend} {tableId partition : String} {id : Uuid} :
    id ∈ snapshotsFor parts tableId partition ↔
      ∃ part ∈ parts, part.tableId = tableId ∧ part.partition = partition ∧
        id ∈ part.snapshots := by
  simp [snapshotsFor, and_assoc]

theorem sublist_snapshotsFor (parts : List PartitionAppend) (tableId partition : String) :
    (snapshotsFor parts tableId partition).Sublist (parts.flatMap PartitionAppend.snapshots) :=
  List.filter_sublist.flatMap _

/-- All snapshots of a request. -/
def AppendRequest.snapshots (request : AppendRequest) : List Uuid :=
  request.partitions.flatMap PartitionAppend.snapshots

namespace Catalog

/-- The snapshots of a partition among the versions of its table. -/
def snapshotsAt (versions : SortedMap PartitionVersion) (partition : String) : List Uuid :=
  ((versions.find? partition).map PartitionVersion.snapshots).getD []

theorem chain_eq_snapshotsAt (catalog : Catalog) (tableId partition : String) :
    catalog.chain tableId partition = snapshotsAt (catalog.versions tableId) partition := by
  unfold chain version? versions snapshotsAt
  cases catalog.partitions.find? tableId <;> rfl

theorem snapshotsAt_advance (mode : CommitMode) (versions : SortedMap PartitionVersion)
    (part : PartitionAppend) (partition : String) :
    snapshotsAt (advance true mode versions part) partition =
      snapshotsAt versions partition ++
        if part.partition = partition then part.snapshots else [] := by
  unfold advance snapshotsAt
  by_cases h : part.partition = partition
  · rw [h, SortedMap.find?_insert_self, if_pos rfl]
    cases versions.find? partition <;> rfl
  · rw [SortedMap.find?_insert_of_ne _ _ (Ne.symm h), if_neg h, List.append_nil]

theorem snapshotsAt_foldl_advance (mode : CommitMode) (parts : List PartitionAppend)
    (versions : SortedMap PartitionVersion) (partition : String) :
    snapshotsAt (parts.foldl (advance true mode) versions) partition =
      snapshotsAt versions partition ++
        (parts.filter (·.partition = partition)).flatMap PartitionAppend.snapshots := by
  induction parts generalizing versions with
  | nil => exact (List.append_nil _).symm
  | cons part rest ih =>
    have hfilter : ((part :: rest).filter (·.partition = partition)).flatMap
          PartitionAppend.snapshots =
        (if part.partition = partition then part.snapshots else []) ++
          (rest.filter (·.partition = partition)).flatMap PartitionAppend.snapshots := by
      by_cases h : part.partition = partition
      · rw [if_pos h, List.filter_cons_of_pos (by simpa using h), List.flatMap_cons]
      · rw [if_neg h, List.filter_cons_of_neg (by simpa using h), List.nil_append]
    rw [List.foldl_cons, ih, snapshotsAt_advance, hfilter, List.append_assoc]

theorem append?_eq_some {catalog next : Catalog} {request : AppendRequest} {keep : Bool}
    {mode : CommitMode} (h : catalog.append? request keep mode = some next) :
    (∀ part ∈ request.partitions, part.tableId = request.table.id) ∧
      next = { catalog with
        partitions := catalog.partitions.insert request.table.id
          (request.partitions.foldl (advance keep mode) (catalog.versions request.table.id)) } := by
  unfold append? at h
  split at h
  · rename_i hadmits
    simp only [admits, Bool.and_eq_true, List.all_eq_true] at hadmits
    refine ⟨fun part hpart ↦ ?_, (Option.some.inj h).symm⟩
    have hpart := hadmits.1.2 part hpart
    simp only [admitsPartition, Bool.and_eq_true, decide_eq_true_eq] at hpart
    exact hpart.1
  · cases h

/-- An accepted request adds its snapshots to the ends of their chains. -/
theorem chain_append? {catalog next : Catalog} {request : AppendRequest} {mode : CommitMode}
    (h : catalog.append? request true mode = some next) (tableId partition : String) :
    next.chain tableId partition =
      catalog.chain tableId partition ++ snapshotsFor request.partitions tableId partition := by
  obtain ⟨hparts, rfl⟩ := append?_eq_some h
  rw [chain_eq_snapshotsAt, chain_eq_snapshotsAt]
  by_cases htable : tableId = request.table.id
  · have hfilter : request.partitions.filter
          (fun part ↦ part.tableId = tableId ∧ part.partition = partition) =
        request.partitions.filter (·.partition = partition) := by
      apply List.filter_congr
      intro part hpart
      rw [hparts part hpart, htable]
      simp
    rw [snapshotsFor, hfilter, versions, htable, SortedMap.find?_insert_self]
    exact snapshotsAt_foldl_advance mode request.partitions _ partition
  · have hnone : snapshotsFor request.partitions tableId partition = [] := by
      apply List.eq_nil_iff_forall_not_mem.2
      intro id hid
      obtain ⟨part, hpart, hid, -, -⟩ := mem_snapshotsFor.1 hid
      exact htable (hid.symm.trans (hparts part hpart))
    rw [hnone, List.append_nil, versions, SortedMap.find?_insert_of_ne _ _ htable]
    rfl

/-- An advance brings nothing but the snapshots of its part, whether it keeps the others or not. -/
theorem mem_snapshotsAt_advance {keep : Bool} {mode : CommitMode}
    {versions : SortedMap PartitionVersion} {part : PartitionAppend} {partition : String}
    {id : Uuid} (h : id ∈ snapshotsAt (advance keep mode versions part) partition) :
    id ∈ snapshotsAt versions partition ∨ id ∈ part.snapshots := by
  unfold advance snapshotsAt at h
  by_cases hpart : partition = part.partition
  · subst hpart
    rw [SortedMap.find?_insert_self] at h
    unfold snapshotsAt
    cases hcurrent : versions.find? part.partition with
    | none =>
      rw [hcurrent] at h
      exact .inr h
    | some current =>
      rw [hcurrent] at h
      have hnext : id ∈ (if keep then current.snapshots else []) ++ part.snapshots := h
      refine (List.mem_append.1 hnext).imp_left fun hkept ↦ ?_
      cases keep with
      | true => exact hkept
      | false => cases hkept
  · rw [SortedMap.find?_insert_of_ne _ _ hpart] at h
    exact .inl h

theorem mem_snapshotsAt_foldl_advance {keep : Bool} {mode : CommitMode}
    {parts : List PartitionAppend} {versions : SortedMap PartitionVersion} {partition : String}
    {id : Uuid} (h : id ∈ snapshotsAt (parts.foldl (advance keep mode) versions) partition) :
    id ∈ snapshotsAt versions partition ∨ id ∈ parts.flatMap PartitionAppend.snapshots := by
  induction parts generalizing versions with
  | nil => exact .inl h
  | cons part rest ih =>
    rw [List.flatMap_cons, List.mem_append]
    rcases ih h with hearlier | hrest
    · exact (mem_snapshotsAt_advance hearlier).imp_right .inl
    · exact .inr (.inr hrest)

/-- An accepted request brings nothing but its own snapshots. -/
theorem mem_chain_append? {catalog next : Catalog} {request : AppendRequest} {keep : Bool}
    {mode : CommitMode} (h : catalog.append? request keep mode = some next)
    {tableId partition : String} {id : Uuid} (hid : id ∈ next.chain tableId partition) :
    id ∈ catalog.chain tableId partition ∨ id ∈ request.snapshots := by
  obtain ⟨-, rfl⟩ := append?_eq_some h
  rw [chain_eq_snapshotsAt] at hid ⊢
  by_cases htable : tableId = request.table.id
  · rw [versions, htable, SortedMap.find?_insert_self] at hid
    rw [htable]
    exact mem_snapshotsAt_foldl_advance hid
  · rw [versions, SortedMap.find?_insert_of_ne _ _ htable] at hid
    exact .inl hid

theorem manifests_append? {catalog next : Catalog} {request : AppendRequest} {keep : Bool}
    {mode : CommitMode} (h : catalog.append? request keep mode = some next) :
    next.manifests = catalog.manifests := by
  obtain ⟨-, rfl⟩ := append?_eq_some h
  rfl

@[simp] theorem chain_insertManifests (catalog : Catalog) (manifests : List Manifest)
    (tableId partition : String) :
    (catalog.insertManifests manifests).chain tableId partition =
      catalog.chain tableId partition := rfl

theorem chain_register? {catalog next : Catalog} {table : Table}
    (h : catalog.register? table = some next) (tableId partition : String) :
    next.chain tableId partition = catalog.chain tableId partition := by
  unfold register? at h
  split at h
  · cases h
  · rw [← Option.some.inj h]
    rfl

theorem manifests_register? {catalog next : Catalog} {table : Table}
    (h : catalog.register? table = some next) : next.manifests = catalog.manifests := by
  unfold register? at h
  split at h
  · cases h
  · rw [← Option.some.inj h]

/-! ## Manifests -/

/-- Whether a catalog holds exactly the given manifests, up to those replaced. -/
structure Holds (catalog : Catalog) (manifests : List Manifest) : Prop where
  stored : ∀ id manifest, catalog.manifest? id = some manifest →
    manifest ∈ manifests ∧ manifest.id = id
  described : ∀ manifest ∈ manifests, ∃ current, catalog.manifest? manifest.id = some current

theorem holds_empty : empty.Holds [] :=
  ⟨fun _ _ h ↦ (by cases h), fun _ h ↦ absurd h List.not_mem_nil⟩

theorem Holds.of_eq {catalog next : Catalog} {manifests : List Manifest}
    (h : catalog.Holds manifests) (hsame : next.manifests = catalog.manifests) :
    next.Holds manifests := by
  constructor
  · intro id manifest hstored
    rw [manifest?, hsame] at hstored
    exact h.stored id manifest hstored
  · intro manifest hmem
    rw [manifest?, hsame]
    exact h.described manifest hmem

theorem Holds.insert {catalog : Catalog} {manifests : List Manifest} (h : catalog.Holds manifests)
    (manifest : Manifest) :
    (catalog.insertManifests [manifest]).Holds (manifests ++ [manifest]) := by
  constructor
  · intro id current hcurrent
    change (catalog.manifests.insert manifest.id manifest).find? id = some current at hcurrent
    by_cases hid : id = manifest.id
    · rw [hid, SequencedMap.find?_insert_self] at hcurrent
      cases hcurrent
      exact ⟨List.mem_append_right _ List.mem_cons_self, hid.symm⟩
    · rw [SequencedMap.find?_insert_of_ne _ _ hid] at hcurrent
      obtain ⟨hmem, hsame⟩ := h.stored id current hcurrent
      exact ⟨List.mem_append_left _ hmem, hsame⟩
  · intro other hother
    change ∃ current, (catalog.manifests.insert manifest.id manifest).find? other.id = some current
    by_cases hid : other.id = manifest.id
    · exact ⟨manifest, by rw [hid, SequencedMap.find?_insert_self]⟩
    · rw [SequencedMap.find?_insert_of_ne _ _ hid]
      rcases List.mem_append.1 hother with hother | hother
      · exact h.described other hother
      · exact absurd (congrArg Manifest.id (List.mem_singleton.1 hother)) hid

theorem Holds.insertManifests {catalog : Catalog} {before : List Manifest}
    (h : catalog.Holds before) (manifests : List Manifest) :
    (catalog.insertManifests manifests).Holds (before ++ manifests) := by
  induction manifests generalizing catalog before with
  | nil =>
    rw [List.append_nil]
    exact h
  | cons manifest rest ih =>
    have hrest := ih (h.insert manifest)
    rw [List.append_assoc] at hrest
    exact hrest

/-- The snapshots without a manifest are those that no stored manifest describes. -/
theorem Holds.contains_iff {catalog : Catalog} {manifests : List Manifest}
    (h : catalog.Holds manifests) (id : Uuid) :
    catalog.manifests.contains id = true ↔ ∃ manifest ∈ manifests, manifest.id = id := by
  rw [SequencedMap.contains_eq_isSome, Option.isSome_iff_exists]
  constructor
  · rintro ⟨manifest, hmanifest⟩
    obtain ⟨hmem, hid⟩ := h.stored id manifest hmanifest
    exact ⟨manifest, hmem, hid⟩
  · rintro ⟨manifest, hmem, rfl⟩
    exact h.described manifest hmem

end Catalog

end CommitCoordinator
