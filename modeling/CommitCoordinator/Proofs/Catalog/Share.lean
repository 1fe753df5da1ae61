import CommitCoordinator.Proofs.Catalog.Admission
import CommitCoordinator.Proofs.Collection.Entries
import CommitCoordinator.Proofs.Coordinator.Twins
import CommitCoordinator.Proofs.Dialogue.Along

/-!
# The share of a table in a catalog

Tables that share a catalog have their versions and manifests under different identifiers. A commit
of one table leaves the shares of the others alone, as long as its snapshots are new. Two catalogs
in which the shares of a table are alike stay so after commits that are alike.
-/

namespace CommitCoordinator

open Dialogue

namespace Catalog

variable {before after catalog other : Catalog}

/-! ## What calls leave alone -/

theorem grants_of_elsewhere {exchange : Exchange} (helsewhere : exchange.isCatalog = false) :
    before.Grants exchange after ↔ after = before := by
  obtain ⟨call, answer⟩ := exchange
  cases call with
  | lookup name => cases helsewhere
  | append request keep mode => cases helsewhere
  | insert manifests => cases helsewhere
  | _ => exact Iff.rfl

/-- A catalog is not concerned by calls that go elsewhere. -/
theorem eq_of_along_elsewhere {transcript : List Exchange}
    (h : Along Grants before transcript after)
    (helsewhere : ∀ exchange ∈ transcript, exchange.isCatalog = false) : after = before :=
  h.eq_of_idle fun exchange hexchange _ _ ↦ (grants_of_elsewhere (helsewhere exchange hexchange)).1

theorem Grants.tables_eq {exchange : Exchange} (h : before.Grants exchange after) :
    after.tables = before.tables :=
  h.serves.tables_eq

theorem tables_eq_of_along {transcript : List Exchange} (h : Along Grants before transcript after) :
    after.tables = before.tables := by
  induction transcript generalizing before with
  | nil => exact congrArg tables h
  | cons exchange rest ih =>
    obtain ⟨between, hgrants, hrest⟩ := h
    exact (ih hrest).trans hgrants.tables_eq

/-! ## Snapshots that a catalog has not seen -/

/-- Whether no chain has any of the snapshots and no manifest describes one. -/
def Lacks (catalog : Catalog) (ids : List Uuid) : Prop :=
  ∀ id ∈ ids, (∀ tableId partition, id ∉ catalog.chain tableId partition) ∧
    catalog.manifest? id = none

theorem Lacks.mono {ids fewer : List Uuid} (h : catalog.Lacks ids) (hsubset : fewer ⊆ ids) :
    catalog.Lacks fewer :=
  fun id hid ↦ h id (hsubset hid)

theorem find?_foldl_insert_of_not_mem {manifests : List Manifest} {id : Uuid}
    (h : id ∉ manifests.map Manifest.id) (map : SequencedMap Uuid Manifest) :
    (manifests.foldl (fun map manifest ↦ map.insert manifest.id manifest) map).find? id =
      map.find? id := by
  induction manifests generalizing map with
  | nil => rfl
  | cons manifest rest ih =>
    rw [List.map_cons, List.mem_cons, not_or] at h
    obtain ⟨hne, hrest⟩ := h
    rw [List.foldl_cons, ih hrest, SequencedMap.find?_insert_of_ne map manifest hne]

/-- A snapshot that a call does not name is not brought by it. -/
theorem Grants.lacks {exchange : Exchange} (h : before.Grants exchange after) {ids : List Uuid}
    (hlacks : before.Lacks ids) (hnamed : ∀ id ∈ ids, id ∉ exchange.named) : after.Lacks ids := by
  intro id hid
  have hasked : id ∉ exchange.asked.flatMap PartitionAppend.snapshots := by
    intro hasked
    obtain ⟨call, answer⟩ := exchange
    cases call with
    | append request keep mode => exact hnamed id hid hasked
    | _ => cases hasked
  refine ⟨fun tableId partition hchain ↦ ?_, ?_⟩
  · exact (h.serves.mem_chain hchain).elim ((hlacks id hid).1 tableId partition) hasked
  · obtain ⟨call, answer⟩ := exchange
    cases call with
    | lookup name => exact h.2 ▸ (hlacks id hid).2
    | append request keep mode =>
      obtain ⟨-, rfl⟩ := h
      cases happend : before.append? request keep mode with
      | none => exact (hlacks id hid).2
      | some next =>
        rw [Option.getD_some, manifest?, manifests_append? happend]
        exact (hlacks id hid).2
    | insert manifests =>
      obtain ⟨-, rfl⟩ := h
      exact (find?_foldl_insert_of_not_mem (hnamed id hid) _).trans (hlacks id hid).2
    | _ => exact (show after = before from h) ▸ (hlacks id hid).2

/-- Snapshots that are drawn later are still new after calls that name only what was drawn. -/
theorem Lacks.along {transcript : List Exchange} (h : Along Grants before transcript after)
    {ids : List Uuid} (hlacks : before.Lacks ids)
    (hnamed : ∀ id ∈ ids, id ∉ transcript.flatMap Exchange.named) : after.Lacks ids := by
  induction transcript generalizing before with
  | nil => exact (show after = before from h) ▸ hlacks
  | cons exchange rest ih =>
    obtain ⟨between, hgrants, hrest⟩ := h
    have hsplit (id : Uuid) (hid : id ∈ ids) :
        id ∉ exchange.named ∧ id ∉ rest.flatMap Exchange.named := by
      have hnone := hnamed id hid
      rw [List.flatMap_cons, List.mem_append, not_or] at hnone
      exact hnone
    exact ih hrest (hgrants.lacks hlacks fun id hid ↦ (hsplit id hid).1) fun id hid ↦
      (hsplit id hid).2

/-- Whether the snapshots that are drawn are new: they differ, and the catalog has none of them. -/
structure Unseen (catalog : Catalog) (transcript : List Exchange) : Prop where
  nodup : (transcript.flatMap Exchange.drawn).Nodup
  lacks : catalog.Lacks (transcript.flatMap Exchange.drawn)

theorem Unseen.of_append {front back : List Exchange} (h : catalog.Unseen (front ++ back)) :
    catalog.Unseen front := by
  obtain ⟨hnodup, hlacks⟩ := h
  rw [List.flatMap_append] at hnodup hlacks
  exact ⟨(List.nodup_append'.1 hnodup).1, hlacks.mono (List.subset_append_left _ _)⟩

/-! ## Shares -/

/-- The manifests of a table in the order in which their snapshots first got one. -/
def manifestsUnder (catalog : Catalog) (tableId : String) : List Manifest :=
  catalog.manifests.values.filter (·.tableId = tableId)

/-- Whether the two phases of a commit lead from one catalog to another. -/
def Commits (before : Catalog) (payload : Payload) (after : Catalog) : Prop :=
  ∃ appended, before.append? payload.request true .append = some appended ∧
    after = appended.insertManifests payload.manifests

/-- Manifests of new snapshots come behind the others, each under its snapshot. -/
theorem entries_insertManifests {manifests : List Manifest}
    (hnodup : (manifests.map Manifest.id).Nodup)
    (hnew : ∀ id ∈ manifests.map Manifest.id, catalog.manifest? id = none) :
    (catalog.insertManifests manifests).manifests.entries =
      catalog.manifests.entries ++ manifests.map fun manifest ↦ (manifest.id, manifest) := by
  have hkeys : (manifests.map fun manifest ↦ (manifest.id, manifest)).map Prod.fst =
      manifests.map Manifest.id := by
    rw [List.map_map]
    rfl
  have hdistinct : ((catalog.manifests.entries ++
      manifests.map fun manifest ↦ (manifest.id, manifest)).map Prod.fst).Nodup := by
    rw [List.map_append, hkeys]
    refine List.nodup_append'.2 ⟨catalog.manifests.nodup, hnodup, fun id hkey hid ↦ ?_⟩
    have hcontains : catalog.manifests.contains id = true := decide_eq_true hkey
    have habsent : catalog.manifests.find? id = none := hnew id hid
    rw [SequencedMap.contains_eq_isSome, habsent] at hcontains
    cases hcontains
  have hentries := SequencedMap.entries_foldl catalog.manifests _ hdistinct
  rwa [List.foldl_map] at hentries

theorem values_insertManifests {manifests : List Manifest}
    (hnodup : (manifests.map Manifest.id).Nodup)
    (hnew : ∀ id ∈ manifests.map Manifest.id, catalog.manifest? id = none) :
    (catalog.insertManifests manifests).manifests.values =
      catalog.manifests.values ++ manifests := by
  rw [SequencedMap.values, entries_insertManifests hnodup hnew, List.map_append, List.map_map]
  exact congrArg _ (List.map_id manifests)

/-- An accepted request advances the versions of its own table alone. -/
theorem versions_append? {request : AppendRequest} {keep : Bool} {mode : CommitMode}
    (h : before.append? request keep mode = some after) (tableId : String) :
    after.versions tableId =
      if tableId = request.table.id then
        request.partitions.foldl (advance keep mode) (before.versions tableId)
      else before.versions tableId := by
  obtain ⟨-, rfl⟩ := append?_eq_some h
  split
  · next hsame =>
    rw [hsame, versions, SortedMap.find?_insert_self]
    rfl
  · next hother =>
    rw [versions, SortedMap.find?_insert_of_ne _ _ hother]
    rfl

namespace Commits

variable {payload : Payload}

theorem versions_eq (h : before.Commits payload after) (tableId : String) :
    after.versions tableId =
      if tableId = payload.request.table.id then
        payload.request.partitions.foldl (advance true .append) (before.versions tableId)
      else before.versions tableId := by
  obtain ⟨appended, happend, rfl⟩ := h
  exact versions_append? happend tableId

theorem manifestsUnder_eq (h : before.Commits payload after) (hnodup : payload.snapshots.Nodup)
    (hlacks : before.Lacks payload.snapshots) (tableId : String) :
    after.manifestsUnder tableId =
      before.manifestsUnder tableId ++ payload.manifests.filter (·.tableId = tableId) := by
  obtain ⟨appended, happend, rfl⟩ := h
  have hsame : appended.manifests = before.manifests := manifests_append? happend
  have hnew : ∀ id ∈ payload.manifests.map Manifest.id, appended.manifest? id = none := by
    intro id hid
    rw [manifest?, hsame]
    exact (hlacks id hid).2
  rw [manifestsUnder, values_insertManifests hnodup hnew, List.filter_append, hsame]
  rfl

end Commits

end Catalog

/-! ## Shares that are alike -/

section Alike

variable (R : Uuid → Uuid → Prop)

/-- Versions that differ in their snapshots only, which are related one by one. -/
structure PartitionVersion.Alike (current other : PartitionVersion) : Prop where
  version : current.version = other.version
  mode : current.mode = other.mode
  snapshots : List.Forall₂ R current.snapshots other.snapshots

/-- Whether the same partitions have versions, and these are alike. -/
def VersionsAlike (versions others : SortedMap PartitionVersion) : Prop :=
  ∀ partition, Option.Rel (PartitionVersion.Alike R) (versions.find? partition)
    (others.find? partition)

/-- Whether a table has the same versions and manifests in two catalogs, up to identifiers that are
related and to the times of manifests. -/
structure Catalog.ShareAlike (tableId : String) (catalog other : Catalog) : Prop where
  versions : VersionsAlike R (catalog.versions tableId) (other.versions tableId)
  manifests : List.Forall₂ (Manifest.Alike R) (catalog.manifestsUnder tableId)
    (other.manifestsUnder tableId)

end Alike

section Alike

variable {R : Uuid → Uuid → Prop} {keep : Bool} {mode : CommitMode}

theorem VersionsAlike.advance {versions others : SortedMap PartitionVersion}
    (h : VersionsAlike R versions others) {part other : PartitionAppend}
    (hpart : part.Alike R other) :
    VersionsAlike R (Catalog.advance keep mode versions part)
      (Catalog.advance keep mode others other) := by
  intro partition
  unfold Catalog.advance
  rw [← hpart.partition]
  by_cases hsame : partition = part.partition
  · subst hsame
    rw [SortedMap.find?_insert_self, SortedMap.find?_insert_self]
    have hversions := h part.partition
    generalize versions.find? part.partition = current at hversions ⊢
    generalize others.find? part.partition = current' at hversions ⊢
    refine .some ?_
    cases hversions with
    | none => exact ⟨rfl, rfl, hpart.snapshots⟩
    | some hversion =>
      refine ⟨congrArg (· + 1) hversion.version, rfl, ?_⟩
      cases keep with
      | true => exact List.rel_append hversion.snapshots hpart.snapshots
      | false => exact hpart.snapshots
  · rw [SortedMap.find?_insert_of_ne _ _ hsame, SortedMap.find?_insert_of_ne _ _ hsame]
    exact h partition

theorem VersionsAlike.foldl_advance {parts others : List PartitionAppend}
    (hparts : List.Forall₂ (PartitionAppend.Alike R) parts others)
    {versions versions' : SortedMap PartitionVersion} (h : VersionsAlike R versions versions') :
    VersionsAlike R (parts.foldl (Catalog.advance keep mode) versions)
      (others.foldl (Catalog.advance keep mode) versions') := by
  induction hparts generalizing versions versions' with
  | nil => exact h
  | cons hpart _ ih => exact ih (h.advance hpart)

namespace Catalog

variable {before after before' after' : Catalog} {tableId : String} {payload other : Payload}

/-- A commit of another table leaves a share alone. -/
theorem ShareAlike.left_of_commits (h : before.ShareAlike R tableId before')
    (hcommits : before.Commits payload after) (hnodup : payload.snapshots.Nodup)
    (hlacks : before.Lacks payload.snapshots) (htable : tableId ≠ payload.request.table.id)
    (hmanifests : ∀ manifest ∈ payload.manifests, manifest.tableId ≠ tableId) :
    after.ShareAlike R tableId before' := by
  have hnone : payload.manifests.filter (·.tableId = tableId) = [] :=
    List.filter_eq_nil_iff.2 fun manifest hmanifest ↦ by simpa using hmanifests manifest hmanifest
  constructor
  · rw [hcommits.versions_eq, if_neg htable]
    exact h.versions
  · rw [hcommits.manifestsUnder_eq hnodup hlacks, hnone, List.append_nil]
    exact h.manifests

/-- Shares that are alike stay so after commits that are alike. -/
theorem ShareAlike.commits (h : before.ShareAlike R tableId before')
    (hpayload : payload.Alike R other)
    (hcommits : before.Commits payload after) (hnodup : payload.snapshots.Nodup)
    (hlacks : before.Lacks payload.snapshots)
    (hcommits' : before'.Commits other after') (hnodup' : other.snapshots.Nodup)
    (hlacks' : before'.Lacks other.snapshots) :
    after.ShareAlike R tableId after' := by
  constructor
  · rw [hcommits.versions_eq, hcommits'.versions_eq, hpayload.request.table]
    split
    · exact h.versions.foldl_advance hpayload.request.partitions
    · exact h.versions
  · rw [hcommits.manifestsUnder_eq hnodup hlacks, hcommits'.manifestsUnder_eq hnodup' hlacks']
    refine List.rel_append h.manifests (List.rel_filter ?_ hpayload.manifests)
    intro manifest manifest' hmanifest
    simp only [hmanifest.tableId]

end Catalog

end Alike

end CommitCoordinator
