import CommitCoordinator.Proofs.Catalog.Versions
import Mathlib.Data.List.Infix

/-!
# Catalogs only grow

Calls that keep the present snapshots never take anything out of a catalog: tables stay where they
are, chains grow at their ends, and a snapshot that has a manifest keeps one. So a request whose
snapshots are in the catalog is refused for ever, and either phase of a commit can be repeated.
-/

namespace CommitCoordinator

namespace SequencedMap

variable {κ β : Type} [DecidableEq κ] {key : κ}

theorem keys_insert_of_contains {map : SequencedMap κ β} (h : map.contains key = true)
    (value : β) : (map.insert key value).keys = map.keys := by
  have hkey : key ∈ map.entries.map Prod.fst := of_decide_eq_true h
  rw [insert, dif_pos hkey]
  exact keys_replaceValue key value map.entries

theorem keys_prefix_insert (map : SequencedMap κ β) (key : κ) (value : β) :
    map.keys <+: (map.insert key value).keys := by
  cases h : map.contains key with
  | true =>
    rw [keys_insert_of_contains h]
  | false =>
    rw [keys_insert_of_not_contains h]
    exact List.prefix_append _ _

/-- A map is known by its keys in their order and by what it finds. -/
theorem eq_of_keys_of_find? {map other : SequencedMap κ β} (hkeys : map.keys = other.keys)
    (hfind : ∀ key, map.find? key = other.find? key) : map = other := by
  have hentries (map : SequencedMap κ β) :
      map.keys.filterMap (fun key ↦ (map.find? key).map (Prod.mk key)) = map.entries := by
    rw [keys, List.filterMap_map]
    calc
      map.entries.filterMap _ = map.entries.filterMap some := by
        apply List.filterMap_congr
        intro entry hentry
        have hfound : map.find? entry.1 = some entry.2 := find?_eq_some_iff.2 hentry
        rw [Function.comp_apply, hfound]
        rfl
      _ = map.entries := List.filterMap_some
  apply eq_of_entries
  rw [← hentries map, ← hentries other, hkeys]
  apply List.filterMap_congr
  intro key _
  rw [hfind key]

end SequencedMap

namespace Catalog

/-! ## Manifests that are stored again -/

/-- A later manifest of a snapshot is found before an earlier one. -/
theorem find?_foldl_insert (manifests : List Manifest) (map : SequencedMap Uuid Manifest)
    (id : Uuid) :
    (manifests.foldl (fun map manifest ↦ map.insert manifest.id manifest) map).find? id =
      (manifests.reverse.find? (·.id = id)).or (map.find? id) := by
  induction manifests generalizing map with
  | nil => rfl
  | cons manifest rest ih =>
    rw [List.foldl_cons, ih, List.reverse_cons, List.find?_append, Option.or_assoc]
    congr 1
    by_cases hid : manifest.id = id
    · subst hid
      rw [SequencedMap.find?_insert_self, List.find?_cons_of_pos (by simp), Option.some_or]
    · rw [SequencedMap.find?_insert_of_ne _ _ (Ne.symm hid), List.find?_cons_of_neg (by simpa)]
      rfl

theorem keys_prefix_foldl_insert (manifests : List Manifest) (map : SequencedMap Uuid Manifest) :
    map.keys <+:
      (manifests.foldl (fun map manifest ↦ map.insert manifest.id manifest) map).keys := by
  induction manifests generalizing map with
  | nil => exact List.prefix_rfl
  | cons manifest rest ih =>
    exact (map.keys_prefix_insert manifest.id manifest).trans (ih _)

/-- Manifests of snapshots that have one already bring no new keys. -/
theorem keys_foldl_insert_of_contains {manifests : List Manifest}
    {map : SequencedMap Uuid Manifest}
    (h : ∀ manifest ∈ manifests, map.contains manifest.id = true) :
    (manifests.foldl (fun map manifest ↦ map.insert manifest.id manifest) map).keys =
      map.keys := by
  induction manifests generalizing map with
  | nil => rfl
  | cons manifest rest ih =>
    have hfirst := h manifest List.mem_cons_self
    have hsame := SequencedMap.keys_insert_of_contains hfirst manifest
    rw [List.foldl_cons, ih, hsame]
    intro other hother
    have hcontains := h other (List.mem_cons_of_mem manifest hother)
    rw [SequencedMap.contains, decide_eq_true_iff] at hcontains ⊢
    exact hsame ▸ hcontains

/-- Storing manifests once more changes nothing. -/
theorem insertManifests_twice (catalog : Catalog) (manifests : List Manifest) :
    (catalog.insertManifests manifests).insertManifests manifests =
      catalog.insertManifests manifests := by
  let insertAll (map : SequencedMap Uuid Manifest) : SequencedMap Uuid Manifest :=
    manifests.foldl (fun map manifest ↦ map.insert manifest.id manifest) map
  have htwice : insertAll (insertAll catalog.manifests) = insertAll catalog.manifests := by
    apply SequencedMap.eq_of_keys_of_find?
    · apply keys_foldl_insert_of_contains
      intro manifest hmanifest
      rw [SequencedMap.contains_eq_isSome, find?_foldl_insert, Option.isSome_or, Bool.or_eq_true]
      left
      rw [List.find?_isSome]
      exact ⟨manifest, List.mem_reverse.2 hmanifest, by simp⟩
    · intro id
      rw [find?_foldl_insert, find?_foldl_insert, ← Option.or_assoc, Option.or_self]
  exact congrArg (Catalog.mk catalog.tables catalog.partitions) htwice

/-! ## The order of growth -/

/-- Whether a catalog has all that an earlier one had, in the same places. -/
structure Extends (earlier later : Catalog) : Prop where
  tables : earlier.tables.entries <+: later.tables.entries
  chains : ∀ tableId partition,
    earlier.chain tableId partition <+: later.chain tableId partition
  manifests : earlier.manifests.keys <+: later.manifests.keys

namespace Extends

theorem refl (catalog : Catalog) : catalog.Extends catalog :=
  ⟨List.prefix_rfl, fun _ _ ↦ List.prefix_rfl, List.prefix_rfl⟩

theorem trans {earlier between later : Catalog} (h : earlier.Extends between)
    (h' : between.Extends later) : earlier.Extends later where
  tables := h.tables.trans h'.tables
  chains tableId partition := (h.chains tableId partition).trans (h'.chains tableId partition)
  manifests := h.manifests.trans h'.manifests

theorem mem_chain {earlier later : Catalog} (h : earlier.Extends later)
    {tableId partition : String} {id : Uuid} (hid : id ∈ earlier.chain tableId partition) :
    id ∈ later.chain tableId partition :=
  (h.chains tableId partition).subset hid

end Extends

variable {catalog next : Catalog}

theorem extends_register? {table : Table} (h : catalog.register? table = some next) :
    catalog.Extends next where
  tables := by
    unfold register? at h
    split at h
    · cases h
    · next hnew =>
      cases h
      have hnew : table.name ∉ catalog.tables.entries.map Prod.fst :=
        of_decide_eq_false (Bool.eq_false_iff.2 hnew)
      rw [SequencedMap.insert, dif_neg hnew]
      exact List.prefix_append _ _
  chains tableId partition := by
    rw [chain_register? h]
  manifests := by
    rw [manifests_register? h]

theorem extends_append? {request : AppendRequest} {mode : CommitMode}
    (h : catalog.append? request true mode = some next) : catalog.Extends next where
  tables := by
    rw [(advances_of_append? h).tables]
  chains tableId partition := by
    rw [chain_append? h]
    exact List.prefix_append _ _
  manifests := by
    rw [manifests_append? h]

theorem extends_insertManifests (catalog : Catalog) (manifests : List Manifest) :
    catalog.Extends (catalog.insertManifests manifests) where
  tables := List.prefix_rfl
  chains _ _ := List.prefix_rfl
  manifests := keys_prefix_foldl_insert manifests catalog.manifests

/-- No call takes anything out of a catalog if it keeps the present snapshots. -/
theorem extends_afterCall {call : CatalogCall} (hkeep : call.keepsChains = true) :
    catalog.Extends (catalog.afterCall call) := by
  have heffect := effect_afterCall catalog call
  generalize catalog.afterCall call = after at heffect ⊢
  generalize catalog.accepts call = accepted at heffect
  cases heffect with
  | kept => exact .refl catalog
  | registered hregister => exact extends_register? hregister
  | appended happend =>
    obtain rfl : _ = true := hkeep
    exact extends_append? happend
  | described manifests => exact extends_insertManifests catalog manifests

theorem extends_afterCalls {calls : List CatalogCall}
    (hkeep : ∀ call ∈ calls, call.keepsChains = true) (catalog : Catalog) :
    catalog.Extends (catalog.afterCalls calls) := by
  induction calls generalizing catalog with
  | nil => exact .refl catalog
  | cons call calls ih =>
    have hfirst : catalog.Extends (catalog.afterCall call) :=
      extends_afterCall (hkeep call List.mem_cons_self)
    apply hfirst.trans
    exact ih (fun other hother ↦ hkeep other (List.mem_cons_of_mem call hother)) _

/-- A version that stays below the largest number never decreases. -/
theorem version_le_afterCalls {calls : List CatalogCall} {tableId partition : String}
    (hbelow : ∀ step ∈ CatalogCall.course CatalogCall.inMemory catalog calls,
      step.before.CanAdvance tableId partition)
    {version : PartitionVersion} (hversion : catalog.version? tableId partition = some version) :
    ∃ later, (catalog.afterCalls calls).version? tableId partition = some later ∧
      version.version ≤ later.version := by
  have hcounted := counted_afterCalls hbelow
  rw [hversion] at hcounted
  cases hlater : (catalog.afterCalls calls).version? tableId partition with
  | none =>
    have hnone := (version?_afterCalls_eq_none_iff.1 hlater).1
    cases hversion.symm.trans hnone
  | some later =>
    refine ⟨later, rfl, Int64.le_iff_toInt_le.2 ?_⟩
    rw [hlater, counted, counted] at hcounted
    omega

/-- A request that brings a snapshot which its partition has is refused. -/
theorem append?_eq_none_of_mem_chain {request : AppendRequest} {part : PartitionAppend}
    (hpart : part ∈ request.partitions) {id : Uuid} (hid : id ∈ part.snapshots)
    (hchain : id ∈ catalog.chain part.tableId part.partition) (keep : Bool) (mode : CommitMode) :
    catalog.append? request keep mode = none := by
  cases happend : catalog.append? request keep mode with
  | none => rfl
  | some after => exact absurd hchain ((suits_of_append? happend).fresh part hpart id hid)

end Catalog

/-- Calls of any clients that keep the present snapshots only add to a catalog. A request that was
accepted and brought a snapshot is refused afterwards and changes nothing, and storing manifests
once more changes nothing either. -/
theorem history_only_grows {calls : List CatalogCall}
    (hkeep : ∀ call ∈ calls, call.keepsChains = true) (catalog : Catalog) :
    catalog.Extends (catalog.afterCalls calls) ∧
    (∀ tableId partition,
      (∀ step ∈ CatalogCall.course CatalogCall.inMemory catalog calls,
        step.before.CanAdvance tableId partition) →
      ∀ version, catalog.version? tableId partition = some version →
        ∃ later, (catalog.afterCalls calls).version? tableId partition = some later ∧
          version.version ≤ later.version) ∧
    (∀ (before : Catalog) (request : AppendRequest) (mode : CommitMode),
      (MemoryCatalog.append request true mode : StateM Catalog _).run before =
        (.ok true, catalog) →
      (∃ part ∈ request.partitions, part.snapshots ≠ []) →
      ∀ keep mode',
        (MemoryCatalog.append request keep mode' : StateM Catalog _).run
            (catalog.afterCalls calls) =
          (.ok false, catalog.afterCalls calls)) ∧
    ∀ manifests : List Manifest,
      let stored := ((MemoryCatalog.insert manifests : StateM Catalog _).run catalog).2
      (MemoryCatalog.insert manifests : StateM Catalog _).run stored = (.ok (), stored) := by
  have hextends := Catalog.extends_afterCalls hkeep catalog
  refine ⟨hextends, fun tableId partition hbelow version ↦ Catalog.version_le_afterCalls hbelow,
    ?_, fun manifests ↦ ?_⟩
  · intro before request mode hrun hbrings keep mode'
    obtain ⟨part, hpart, hsnapshots⟩ := hbrings
    obtain ⟨id, hid⟩ := List.exists_mem_of_ne_nil _ hsnapshots
    rw [Catalog.run_append] at hrun
    cases happend : before.append? request true mode with
    | none =>
      rw [happend] at hrun
      cases hrun
    | some after =>
      rw [happend] at hrun
      cases hrun
      have hchain : id ∈ after.chain part.tableId part.partition := by
        rw [Catalog.chain_append? happend]
        apply List.mem_append_right
        exact mem_snapshotsFor.2 ⟨part, hpart, rfl, rfl, hid⟩
      have hrefused := Catalog.append?_eq_none_of_mem_chain hpart hid (hextends.mem_chain hchain)
        keep mode'
      rw [Catalog.run_append, hrefused]
      rfl
  · exact congrArg (Prod.mk (Except.ok ())) (catalog.insertManifests_twice manifests)

/-- What other clients do after the first snapshot was appended. -/
def laterCalls : List CatalogCall :=
  [.ensure eventsTable, .append (numberedRequest 1) true .append,
    .insert [.empty (.ofNumber 0) "t" "d"]]

theorem history_only_grows_resubmitted :
    (∀ call ∈ laterCalls, call.keepsChains = true) ∧
      let first := Catalog.empty.afterCalls
        [.register eventsTable, .append (numberedRequest 0) true .append]
      (first.afterCalls laterCalls).chain "t" "d" = [.ofNumber 0, .ofNumber 1] ∧
        (MemoryCatalog.append (numberedRequest 0) true .append : StateM Catalog _).run
            (first.afterCalls laterCalls) =
          (.ok false, first.afterCalls laterCalls) := by
  have hkeep : ∀ call ∈ laterCalls, call.keepsChains = true := by decide
  refine ⟨hkeep, by decide, ?_⟩
  obtain ⟨-, -, hrefused, -⟩ := history_only_grows hkeep
    (Catalog.empty.afterCalls [.register eventsTable, .append (numberedRequest 0) true .append])
  apply hrefused (Catalog.empty.afterCalls [.register eventsTable]) (numberedRequest 0) .append
  · rfl
  · decide

end CommitCoordinator
