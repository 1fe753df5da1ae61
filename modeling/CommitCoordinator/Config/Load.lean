import CommitCoordinator.Config.Merge
import CommitCoordinator.Config.Validate
import CommitCoordinator.Text.Utf8

/-!
# Loading configurations

A configuration comes from YAML files. A source is a file or a directory with files, which are
taken in the order of their names. The sources are merged in order; one that cannot be used does
not keep the others from being read, and the errors are reported together.
-/

namespace CommitCoordinator

open Storage Template

/-- Where a part of a configuration comes from. -/
inductive ConfigSource where
  | file (path : String)
  | dir (path : String)
deriving DecidableEq, Repr

/-- The path that a source was named by. -/
def ConfigSource.path : ConfigSource → String
  | .file path => path
  | .dir path => path

namespace Config

/-- Reads a configuration from text without a look at its validity. -/
def ofText (env : Environment) (text : String) : Except ConfigError Config :=
  let expansion := expand env text
  if expansion.unset = [] then
    (Yaml.decodeText codec fields.names expansion.text).mapError .yaml
  else .error (.unsetVariables expansion.unset)

/-- Reads a valid configuration from text. -/
def parse (env : Environment) (text : String) : Except ConfigError Config := do
  (← ofText env text).validated

/-! ## Merging sources -/

/-- Merges parts in order; the result is the merged configuration with the messages of parts that
could not be used, each under the path of its part. -/
def mergeAll (config : Config) :
    List (String × Except ConfigError Config) → Config × List String
  | [] => (config, [])
  | (path, part) :: rest =>
    match part.bind config.merge with
    | .ok config => mergeAll config rest
    | .error e =>
      let (config, messages) := mergeAll config rest
      (config, s!"{path}: {e.message}" :: messages)

/-- The configuration of all parts, if every one of them can be used. -/
def combine (parts : List (String × Except ConfigError Config)) : Except ConfigError Config :=
  match mergeAll empty parts with
  | (config, []) => .ok config
  | (_, messages) => .error (.several messages)

/-! ## Files and directories -/

variable {m : Type → Type} [Monad m] [MonadFileSystem m]

/-- The text of a file. -/
def readText (path : String) : m (Except ConfigError String) := do
  match ← readFile path with
  | .error cause => return .error (.unreadableFile cause)
  | .ok bytes =>
    match Text.utf8Fault? bytes with
    | some _ => return .error (.unreadableFile .notText)
    | none => return .ok (String.ofList (Text.decodeLossy bytes))

/-- The configuration in a file, its variables replaced. -/
def loadFile (env : Environment) (path : String) : m (Except ConfigError Config) := do
  if hasYamlExtension path then return (← readText path).bind (ofText env)
  else return .error (.unsupportedFormat path)

/-- Whether an entry of a directory is a file that configurations are read from. -/
def isSourceFile (path : String) : m Bool := do
  if hasYamlExtension path then isFile path else return false

/-- The paths of the files of a directory in the order of their names. -/
def filesOf (dir : String) (names : List String) : m (List String) :=
  ((names.mergeSort (· ≤ ·)).map (childPath dir)).filterM isSourceFile

/-- The merged configuration of files. -/
def loadFiles (env : Environment) (paths : List String) : m (Except ConfigError Config) := do
  return combine (← paths.mapM fun path ↦ return (path, ← loadFile env path))

/-- The merged configuration of the files of a directory. -/
def loadDir (env : Environment) (dir : String) : m (Except ConfigError Config) := do
  match ← listDir dir with
  | .error cause => return .error (.unreadableDirectory dir cause)
  | .ok listed => loadFiles env (← filesOf dir (listed.map Listed.name))

/-- The configuration of one source. -/
def loadSource (env : Environment) : ConfigSource → m (Except ConfigError Config)
  | .file path => loadFile env path
  | .dir path => loadDir env path

/-- The valid configuration of several sources. -/
def ofSources (env : Environment) (sources : List ConfigSource) :
    m (Except ConfigError Config) := do
  let parts ← sources.mapM fun source ↦ return (source.path, ← loadSource env source)
  return (combine parts).bind validated

/-- The valid configuration of one file of any name. -/
def ofFile (env : Environment) (path : String) : m (Except ConfigError Config) := do
  return (← readText path).bind (parse env)

end Config

end CommitCoordinator
