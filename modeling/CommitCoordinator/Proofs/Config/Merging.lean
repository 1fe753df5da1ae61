import CommitCoordinator.Config.Load
import CommitCoordinator.Proofs.Collection.Entries
import Mathlib.Data.List.Nodup

/-!
# What merging configurations gives

A setting that is merged is the last one that is not the default, so it does not matter how
configurations are grouped before they are merged, as long as each group begins with the defaults.
The tables of merged configurations stand one after the other, which is possible only if no two
configurations have a table in common.
-/

namespace CommitCoordinator.Config

/-! ## Settings -/

theorem override_assoc (isDefault : String → Bool) (first second third : String) :
    override isDefault first (override isDefault second third) =
      override isDefault (override isDefault first second) third := by
  cases hthird : isDefault third <;> simp [override, hthird]

@[simp] theorem isSamePath_self (path : String) : Storage.isSamePath path path = true := by
  simp [Storage.isSamePath]

theorem override_of_default {isDefault : String → Bool} {later : String}
    (h : isDefault later = true) (earlier : String) : override isDefault earlier later = earlier :=
  if_pos h

theorem mergeSettings_assoc (first second third : Config) :
    first.mergeSettings (second.mergeSettings third) =
      (first.mergeSettings second).mergeSettings third := by
  simp only [mergeSettings, override_assoc]

/-- The defaults replace nothing. -/
theorem mergeSettings_empty (config : Config) : config.mergeSettings empty = config := by
  simp only [mergeSettings, empty, override_of_default (isSamePath_self _)]
  rw [override_of_default (decide_eq_true rfl)]

/-- Settings that were merged beforehand are taken over as if they came one after the other. -/
theorem foldl_mergeSettings (config first : Config) (parts : List Config) :
    config.mergeSettings (parts.foldl mergeSettings first) =
      parts.foldl mergeSettings (config.mergeSettings first) := by
  induction parts generalizing first with
  | nil => rfl
  | cons part rest ih => rw [List.foldl_cons, ih, mergeSettings_assoc, List.foldl_cons]

/-- Merging settings does not look at tables. -/
theorem foldl_mergeSettings_withTables (config : Config)
    (tables : SequencedMap TableKey TableConfig) (parts : List Config) :
    parts.foldl mergeSettings { config with tables } =
      { parts.foldl mergeSettings config with tables } := by
  induction parts generalizing config with
  | nil => rfl
  | cons part rest ih => exact ih (config.mergeSettings part)

/-! ## Tables -/

/-- Whether a configuration is what merging others into a base gives. -/
structure IsMerged (base : Config) (parts : List Config) (merged : Config) : Prop where
  entries : merged.tables.entries = base.tables.entries ++ parts.flatMap (·.tables.entries)
  settings : merged = { parts.foldl mergeSettings base with tables := merged.tables }

theorem foldl_addTable (config : Config) (entries : List (TableKey × TableConfig)) :
    entries.foldl addTable config = { config with
      tables := entries.foldl (fun map entry ↦ map.insert entry.1 entry.2) config.tables } := by
  induction entries generalizing config with
  | nil => rfl
  | cons entry rest ih => rw [List.foldl_cons, ih]; rfl

theorem duplicates_eq_nil_iff {config later : Config} :
    config.duplicates later = [] ↔
      ((config.tables.entries ++ later.tables.entries).map Prod.fst).Nodup := by
  rw [duplicates, List.filter_eq_nil_iff, List.map_append, List.nodup_append']
  constructor
  · intro h
    exact ⟨config.tables.nodup, later.tables.nodup, fun key hkey hlater ↦
      h key hlater (decide_eq_true hkey)⟩
  · rintro ⟨-, -, hdisjoint⟩ key hlater hcontains
    exact hdisjoint (of_decide_eq_true hcontains) hlater

/-- A configuration is merged with another one if the two have no table in common. -/
theorem merge_eq_ok_iff {config later merged : Config} :
    config.merge later = .ok merged ↔ config.IsMerged [later] merged := by
  unfold merge
  constructor
  · intro h
    split at h
    · next hnone =>
      have hnodup := duplicates_eq_nil_iff.1 hnone
      obtain rfl := Except.ok.inj h
      rw [foldl_addTable]
      refine ⟨?_, rfl⟩
      rw [List.flatMap_singleton]
      exact SequencedMap.entries_foldl config.tables _ hnodup
    · cases h
  · rintro ⟨hentries, hsettings⟩
    rw [List.flatMap_singleton] at hentries
    have hnodup := hentries ▸ merged.tables.nodup
    rw [duplicates_eq_nil_iff.2 hnodup, foldl_addTable]
    have htables : later.tables.entries.foldl (fun map entry ↦ map.insert entry.1 entry.2)
        config.tables = merged.tables :=
      SequencedMap.eq_of_entries
        ((SequencedMap.entries_foldl config.tables _ hnodup).trans hentries.symm)
    rw [hsettings]
    exact congrArg (fun tables ↦ Except.ok { config.mergeSettings later with tables }) htables

/-! ## Several configurations -/

namespace IsMerged

variable {base part merged : Config} {parts rest : List Config}

theorem nil_iff : base.IsMerged [] merged ↔ merged = base := by
  constructor
  · rintro ⟨hentries, hsettings⟩
    have htables : merged.tables = base.tables :=
      SequencedMap.eq_of_entries (hentries.trans (List.append_nil _))
    rw [hsettings, htables]
    rfl
  · rintro rfl
    exact ⟨(List.append_nil _).symm, rfl⟩

/-- A configuration that merges exists if no two of the others have a table in common. -/
theorem exists_iff : (∃ merged, base.IsMerged parts merged) ↔
    ((base.tables.entries ++ parts.flatMap (·.tables.entries)).map Prod.fst).Nodup := by
  constructor
  · rintro ⟨merged, hentries, -⟩
    exact hentries ▸ merged.tables.nodup
  · intro h
    exact ⟨{ parts.foldl mergeSettings base with tables := ⟨_, h⟩ }, rfl, rfl⟩

/-- Configurations may be merged beforehand, beginning with the defaults. -/
theorem group_iff : base.IsMerged parts merged ↔
    ∃ part, empty.IsMerged parts part ∧ base.merge part = .ok merged := by
  have hsettings {part : Config} (hpart : empty.IsMerged parts part) :
      [part].foldl mergeSettings base = parts.foldl mergeSettings base := by
    rw [List.foldl_cons, List.foldl_nil, hpart.settings]
    exact (foldl_mergeSettings base empty parts).trans (by rw [mergeSettings_empty])
  have hentries {part : Config} (hpart : empty.IsMerged parts part) :
      [part].flatMap (·.tables.entries) = parts.flatMap (·.tables.entries) := by
    rw [List.flatMap_singleton, hpart.entries]
    rfl
  simp only [merge_eq_ok_iff]
  constructor
  · intro h
    obtain ⟨part, hpart⟩ : ∃ part, empty.IsMerged parts part := by
      have hnodup := exists_iff.1 ⟨merged, h⟩
      rw [List.map_append] at hnodup
      exact exists_iff.2 (List.nodup_append'.1 hnodup).2.1
    exact ⟨part, hpart, hentries hpart ▸ h.entries, hsettings hpart ▸ h.settings⟩
  · rintro ⟨part, hpart, h⟩
    exact ⟨hentries hpart ▸ h.entries, hsettings hpart ▸ h.settings⟩

theorem cons_iff : base.IsMerged (part :: rest) merged ↔
    ∃ next, base.merge part = .ok next ∧ next.IsMerged rest merged := by
  have entries {next : Config} (hnext : base.IsMerged [part] next) :
      base.tables.entries ++ (part :: rest).flatMap (·.tables.entries) =
        next.tables.entries ++ rest.flatMap (·.tables.entries) := by
    rw [hnext.entries, List.flatMap_cons, List.flatMap_singleton, List.append_assoc]
  have settings {next : Config} (hnext : base.IsMerged [part] next) :
      { (part :: rest).foldl mergeSettings base with tables := merged.tables } =
        { rest.foldl mergeSettings next with tables := merged.tables } := by
    have hrest := foldl_mergeSettings_withTables (base.mergeSettings part) next.tables rest
    rw [show next = { base.mergeSettings part with tables := next.tables } from hnext.settings,
      hrest]
    rfl
  simp only [merge_eq_ok_iff]
  constructor
  · intro h
    obtain ⟨next, hnext⟩ : ∃ next, base.IsMerged [part] next := by
      have hnodup := exists_iff.1 ⟨merged, h⟩
      rw [List.flatMap_cons, ← List.append_assoc, List.map_append] at hnodup
      refine exists_iff.2 ?_
      rw [List.flatMap_singleton]
      exact (List.nodup_append'.1 hnodup).1
    exact ⟨next, hnext, entries hnext ▸ h.entries, settings hnext ▸ h.settings⟩
  · rintro ⟨next, hnext, h⟩
    exact ⟨(entries hnext).symm ▸ h.entries, settings hnext ▸ h.settings⟩

/-- Configurations may be merged in two goes. -/
theorem append_iff : base.IsMerged (parts ++ rest) merged ↔
    ∃ next, base.IsMerged parts next ∧ next.IsMerged rest merged := by
  induction parts generalizing base with
  | nil => simp [nil_iff]
  | cons part parts ih =>
    simp only [List.cons_append, cons_iff, ih]
    constructor
    · rintro ⟨first, hfirst, next, hnext, h⟩
      exact ⟨next, ⟨first, hfirst, hnext⟩, h⟩
    · rintro ⟨next, ⟨first, hfirst, hnext⟩, h⟩
      exact ⟨first, hfirst, next, hnext, h⟩

end IsMerged

/-- The tables of configurations one after the other, with the settings that are left when these are
merged. -/
def joined (parts : List Config)
    (h : parts.Pairwise fun part other ↦ part.tables.keys.Disjoint other.tables.keys) : Config :=
  { parts.foldl mergeSettings empty with
    tables := ⟨parts.flatMap (·.tables.entries), by
      rw [List.map_flatMap]
      exact List.nodup_flatMap.2 ⟨fun part _ ↦ part.tables.nodup, h⟩⟩ }

theorem isMerged_empty_iff {parts : List Config} {merged : Config} :
    empty.IsMerged parts merged ↔ ∃ h, merged = joined parts h := by
  constructor
  · intro h
    have hnodup := IsMerged.exists_iff.1 ⟨merged, h⟩
    rw [List.map_append, List.map_flatMap] at hnodup
    have hdisjoint := (List.nodup_flatMap.1 (List.nodup_append'.1 hnodup).2.1).2
    refine ⟨hdisjoint, ?_⟩
    exact h.settings.trans (congrArg (fun tables ↦ { parts.foldl mergeSettings empty with tables })
      (SequencedMap.eq_of_entries h.entries))
  · rintro ⟨h, rfl⟩
    exact ⟨rfl, rfl⟩

/-- A configuration in which a path that is the default one is spelled like that. -/
def respelled (config : Config) : Config :=
  { config with
    catalogPath := if Storage.isSamePath defaultCatalogPath config.catalogPath then
      defaultCatalogPath else config.catalogPath
    stateDir := if Storage.isSamePath defaultStateDir config.stateDir then
      defaultStateDir else config.stateDir }

/-- One configuration alone is merged with the defaults only. -/
theorem joined_singleton (part : Config) (h) : joined [part] h = part.respelled := by
  have haddress : override (· = defaultMetricsAddress) defaultMetricsAddress part.metricsAddress =
      part.metricsAddress := by
    unfold override
    split
    · next h => exact (of_decide_eq_true h).symm
    · rfl
  unfold joined respelled
  rw [Config.mk.injEq]
  exact ⟨SequencedMap.eq_of_entries (List.flatMap_singleton _ _), rfl, rfl, haddress⟩

/-- Validity does not depend on how the default paths are spelled. -/
theorem validate_respelled (part : Config) : part.respelled.validate = part.validate := by
  have hempty : part.respelled.catalogPath = "" ↔ part.catalogPath = "" := by
    unfold respelled
    dsimp only
    split
    · next hsame =>
      refine iff_of_false (by decide) fun hpath ↦ ?_
      rw [hpath] at hsame
      exact absurd hsame (by decide)
    · rfl
  unfold validate
  rw [show part.respelled.tableErrors = part.tableErrors from rfl]
  simp only [hempty]

/-- All parts are merged if each of them can be used. -/
theorem mergeAll_eq_iff {config merged : Config}
    {parts : List (String × Except ConfigError Config)} :
    config.mergeAll parts = (merged, []) ↔
      ∃ configs, parts.map Prod.snd = configs.map .ok ∧ config.IsMerged configs merged := by
  induction parts generalizing config with
  | nil =>
    rw [mergeAll, Prod.mk.injEq, and_iff_left rfl]
    constructor
    · rintro rfl
      exact ⟨[], rfl, IsMerged.nil_iff.2 rfl⟩
    · rintro ⟨configs, hconfigs, h⟩
      obtain rfl := List.map_eq_nil_iff.1 hconfigs.symm
      exact (IsMerged.nil_iff.1 h).symm
  | cons part rest ih =>
    obtain ⟨path, result⟩ := part
    have hsplit : (∃ configs, ((path, result) :: rest).map Prod.snd = configs.map .ok ∧
        config.IsMerged configs merged) ↔
          ∃ next, result.bind config.merge = .ok next ∧ next.mergeAll rest = (merged, []) := by
      simp only [ih]
      constructor
      · rintro ⟨_ | ⟨part, configs⟩, hconfigs, h⟩
        · cases hconfigs
        · obtain ⟨hpart, hrest⟩ := List.cons.inj hconfigs
          obtain ⟨next, hnext, h⟩ := IsMerged.cons_iff.1 h
          obtain rfl : result = .ok part := hpart
          exact ⟨next, hnext, configs, hrest, h⟩
      · rintro ⟨next, hnext, configs, hrest, h⟩
        cases result with
        | error e => cases hnext
        | ok part =>
          exact ⟨part :: configs, congrArg (Except.ok part :: ·) hrest,
            IsMerged.cons_iff.2 ⟨next, hnext, h⟩⟩
    rw [hsplit, mergeAll]
    cases hresult : result.bind config.merge with
    | ok next => simp
    | error e =>
      simp

theorem combine_eq_ok_iff {merged : Config} {parts : List (String × Except ConfigError Config)} :
    combine parts = .ok merged ↔
      ∃ configs, parts.map Prod.snd = configs.map .ok ∧ empty.IsMerged configs merged := by
  rw [← mergeAll_eq_iff, combine]
  split
  · next config hmerged => simp [hmerged]
  · next config messages hne hmerged =>
    constructor
    · intro h
      cases h
    · intro h
      rw [hmerged] at h
      cases h
      exact absurd rfl hne

end CommitCoordinator.Config
