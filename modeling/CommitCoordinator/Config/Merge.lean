import CommitCoordinator.Config.Error

/-!
# Merging configurations

A table may come from one source only. The other settings of a later source replace those of an
earlier one wherever they differ from the defaults.
-/

namespace CommitCoordinator.Config

/-- A later setting, unless it is the default. -/
def override (isDefault : String → Bool) (earlier later : String) : String :=
  if isDefault later then earlier else later

/-- Replaces the settings beside the tables. -/
def mergeSettings (config later : Config) : Config :=
  { config with
    catalogPath :=
      override (Storage.isSamePath defaultCatalogPath) config.catalogPath later.catalogPath
    stateDir := override (Storage.isSamePath defaultStateDir) config.stateDir later.stateDir
    metricsAddress :=
      override (· = defaultMetricsAddress) config.metricsAddress later.metricsAddress }

/-- The tables of a later source that are configured already. -/
def duplicates (config later : Config) : List TableKey :=
  later.tables.keys.filter config.tables.contains

/-- Adds a table. -/
def addTable (config : Config) (entry : TableKey × TableConfig) : Config :=
  { config with tables := config.tables.insert entry.1 entry.2 }

/-- Adds the tables of a later source behind the present ones and takes over its settings. -/
def merge (config later : Config) : Except ConfigError Config :=
  match config.duplicates later with
  | [] => .ok (later.tables.entries.foldl addTable (config.mergeSettings later))
  | keys => .error (.duplicateTables keys)

end CommitCoordinator.Config
