import CommitCoordinator.Config.SinkOptions
import CommitCoordinator.Config.TableKey
import CommitCoordinator.Storage.Location

/-!
# Configurations

A configuration lists tables under their keys, and tells where the catalog and the snapshots are
kept and where metrics are served. In the written form of a table the sink options stand beside
the other members.
-/

namespace CommitCoordinator

open Data Storage

/-- The configuration of one table. -/
structure TableConfig where
  options : SinkOptions
  /-- The name of the table in the catalog, if it differs from the key. -/
  tableName : Option String
  /-- Whether to add the table to the catalog if it is missing. -/
  createIfMissing : Bool
  storageOptions : StoreOptions
deriving DecidableEq

namespace TableConfig

/-- The name of the table in the catalog. -/
def resolvedName (table : TableConfig) (key : TableKey) : String :=
  table.tableName.getD key.text

def title : String := recordTitle "TableConfig"

/-- The members that are no sink options. -/
def ownFields : Fields [Option String, Bool, StoreOptions] :=
  .cons (.defaulted "table_name" (.optional .text) none) <|
  .cons (.defaulted "create_if_missing" .bool false) <|
  .cons (.defaulted "storage_options" (.sequencedMap id .ok .text) .empty) .nil

/-- Reads the own members of a table and keeps the others for later. -/
def splitMembers (slots : Slots [Option String, Bool, StoreOptions]) :
    List (Value × Value) →
      Except Complaint (Slots [Option String, Bool, StoreOptions] × List (Value × Value))
  | [] => .ok (slots, [])
  | (key, value) :: rest => do
    let name ← decodeText "field identifier" key
    match ← ownFields.accept name (key, value) slots with
    | some slots => splitMembers slots rest
    | none =>
      let held ← (hold value).mapError (·.within (memberStep key))
      let (slots, kept) ← splitMembers slots rest
      return (slots, (.string name, held) :: kept)

/-- Reads the sink options from the kept members; complaints name the table alone. -/
def decodeOptions (kept : List (Value × Value)) : Except Complaint SinkOptions :=
  match SinkOptions.format.decodeMembers kept with
  | .ok values => .ok (.ofTuple values)
  | .error complaint => complain complaint.problem

def decode (value : Value) : Except Complaint TableConfig := do
  let (slots, kept) ← splitMembers ownFields.emptySlots (← membersOf title value)
  let (tableName, createIfMissing, storageOptions, ()) ← ownFields.complete slots
  return ⟨← decodeOptions kept, tableName, createIfMissing, storageOptions⟩

def codec : Codec TableConfig where
  encode table := .ofMembers <|
    SinkOptions.fields.encode table.options.toTuple ++
      ownFields.encode (table.tableName, table.createIfMissing, table.storageOptions, ())
  decode := decode

end TableConfig

/-- The configuration of a run. -/
structure Config where
  tables : SequencedMap TableKey TableConfig
  /-- The path of the catalog. -/
  catalogPath : String
  /-- The directory of the snapshots. -/
  stateDir : String
  metricsAddress : String
deriving DecidableEq

namespace Config

/-- The catalog of a configuration that names none. -/
def defaultCatalogPath : String := "soulsink-catalog.json"

/-- The directory of snapshots of a configuration that names none. -/
def defaultStateDir : String := "soulsink-state"

/-- The address for metrics of a configuration that names none. -/
def defaultMetricsAddress : String := "0.0.0.0:9090"

/-- A configuration without tables. -/
def empty : Config :=
  ⟨.empty, defaultCatalogPath, defaultStateDir, defaultMetricsAddress⟩

instance : Inhabited Config := ⟨empty⟩

/-- The path of the snapshots of a table. -/
def statePath (config : Config) (key : TableKey) : String :=
  key.statePath config.stateDir

/-! ## Written form -/

/-- A file path, which messages call a path string. -/
def pathCodec : Codec String where
  encode := .string
  decode := decodeText "path string"

/-- A section of one member with a default; other members are refused. -/
def sectionCodec (title name : String) (codec : Codec String) (default : String) : Codec String :=
  .record ⟨recordTitle title, .cons (.defaulted name codec default) .nil, true⟩
    (fun value ↦ (value, ())) Prod.fst

def fields : Fields [SequencedMap TableKey TableConfig, String, String, String] :=
  .cons (.defaulted "tables"
    (.sequencedMap TableKey.text (fun text ↦ .ok ⟨text⟩) TableConfig.codec) .empty) <|
  .cons (.defaulted "catalog"
    (sectionCodec "CatalogConfig" "path" pathCodec defaultCatalogPath) defaultCatalogPath) <|
  .cons (.defaulted "state"
    (sectionCodec "StateConfig" "dir" pathCodec defaultStateDir) defaultStateDir) <|
  .cons (.defaulted "metrics"
    (sectionCodec "MetricsConfig" "address" .text defaultMetricsAddress) defaultMetricsAddress) .nil

def codec : Codec Config :=
  .record ⟨recordTitle "Config", fields, false⟩
    (fun c ↦ (c.tables, c.catalogPath, c.stateDir, c.metricsAddress, ()))
    (fun (tables, catalogPath, stateDir, metricsAddress, ()) ↦
      ⟨tables, catalogPath, stateDir, metricsAddress⟩)

end Config

end CommitCoordinator
