import CommitCoordinator.Storage.FileName

/-!
# Keys of tables in a configuration

The key of a table also names the file that holds its snapshots and stands for the table in
metrics and messages.
-/

namespace CommitCoordinator

/-- The name under which a table is configured. -/
structure TableKey where
  text : String
deriving DecidableEq, Repr

namespace TableKey

/-- Whether the key would lead to another directory when used in a file name. -/
def hasSeparator (key : TableKey) : Bool :=
  key.text.toList.any fun c ↦ c = '/' || c = '\\'

/-- The name of the file with the snapshots of the table. -/
def stateFileName (key : TableKey) : String :=
  key.text ++ ".json"

/-- The path of the snapshots below a directory. -/
def statePath (key : TableKey) (dir : String) : String :=
  Storage.childPath dir key.stateFileName

end TableKey

end CommitCoordinator
