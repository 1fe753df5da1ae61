import CommitCoordinator.Config.Error

/-!
# Valid configurations

A configuration is valid if it names a place for the catalog, if no key of a table leads to
another directory, and if the options of every table can be used. All faults of tables are
reported together.
-/

namespace CommitCoordinator

/-- The error for a fault of the options of a table. -/
def ConfigError.ofFault (table : String) : OptionsFault → ConfigError
  | .emptyLocation => .emptyLocation table
  | .emptyOpenMark => .emptyOpenMark table

/-- What is wrong with a table, its key first. -/
def TableConfig.error? (key : TableKey) (table : TableConfig) : Option ConfigError :=
  if key.hasSeparator then some (.separatorInKey key.text)
  else table.options.fault?.map (.ofFault key.text)

namespace Config

/-- What is wrong with the tables, in their order. -/
def tableErrors (config : Config) : List ConfigError :=
  config.tables.entries.filterMap fun entry ↦ entry.2.error? entry.1

def validate (config : Config) : Except ConfigError Unit :=
  if config.catalogPath = "" then .error .emptyCatalogPath
  else
    match config.tableErrors with
    | [] => .ok ()
    | [e] => .error e
    | errors => .error (.several (errors.map ConfigError.message))

/-- A configuration if it is valid. -/
def validated (config : Config) : Except ConfigError Config := do
  config.validate
  return config

end Config

end CommitCoordinator
