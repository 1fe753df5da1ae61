import CommitCoordinator.Config.Basic
import CommitCoordinator.Config.Template
import CommitCoordinator.Storage.FileSystem
import CommitCoordinator.Yaml.Reader

/-!
# Why a configuration cannot be used
-/

namespace CommitCoordinator

open Data Storage

/-- The ways in which a configuration is refused. -/
inductive ConfigError where
  | emptyLocation (table : String)
  | emptyOpenMark (table : String)
  | separatorInKey (table : String)
  | emptyCatalogPath
  /-- Variables without a value, once for each place that needs them. -/
  | unsetVariables (names : List String)
  | yaml (complaint : Complaint)
  | unreadableFile (cause : OsError)
  /-- Tables that another source has configured already. -/
  | duplicateTables (keys : List TableKey)
  | unsupportedFormat (path : String)
  | unreadableDirectory (path : String) (cause : OsError)
  /-- The messages of several errors. -/
  | several (messages : List String)
deriving DecidableEq, Repr

/-- The text shown for a refused configuration. -/
def ConfigError.message : ConfigError → String
  | .emptyLocation table => s!"Table '{table}' has empty location_path"
  | .emptyOpenMark table => s!"Table '{table}' has empty file_in_progress_part_prefix"
  | .separatorInKey table => s!"Table key '{table}' must not contain path separators"
  | .emptyCatalogPath => "Catalog path cannot be empty"
  | .unsetVariables names =>
    "Environment variable interpolation failed:\n" ++
      String.intercalate "\n" (names.map Template.unsetMessage)
  | .yaml complaint => "Failed to parse YAML: " ++ Yaml.describe complaint
  | .unreadableFile cause => s!"Failed to read configuration file: {cause.message}"
  | .duplicateTables keys =>
    "Duplicate component keys: " ++ String.intercalate ", " (keys.map TableKey.text)
  | .unsupportedFormat path => s!"Unsupported config format for {path}: only .yaml/.yml supported"
  | .unreadableDirectory path _ => s!"Failed to read directory {path}"
  | .several messages => "Multiple config errors:\n" ++ String.intercalate "\n" messages

end CommitCoordinator
