import CommitCoordinator.Data.Record
import CommitCoordinator.Text.Blank

/-!
# Options of a table
-/

namespace CommitCoordinator

open Data

/-- The mark of a file that its writer has not closed. -/
def defaultOpenMark : String := ".inprogress"

/-- What a coordinator needs to know about its table. -/
structure SinkOptions where
  /-- The root directory of the table, with the partitions directly below. -/
  location : String
  /-- The columns of every file, separated by commas. -/
  columns : String
  /-- Text in the paths of files that are still being written. -/
  openMark : String
deriving DecidableEq, Repr

/-- Why options cannot be used. -/
inductive OptionsFault where
  | emptyLocation
  | emptyOpenMark
deriving DecidableEq, Repr

namespace SinkOptions

/-- The options of a location with all others at their defaults. -/
def ofLocation (location : String) : SinkOptions :=
  ⟨location, "", defaultOpenMark⟩

/-- What is wrong with options, the location first. -/
def fault? (options : SinkOptions) : Option OptionsFault :=
  if Text.isBlank options.location then some .emptyLocation
  else if options.openMark = "" then some .emptyOpenMark
  else none

def fields : Fields [String, String, String] :=
  .cons (.required "location_path" .text) <|
  .cons (.defaulted "file_exist_column" .text "") <|
  .cons (.defaulted "file_in_progress_part_prefix" .text defaultOpenMark) .nil

def format : RecordFormat [String, String, String] :=
  ⟨recordTitle "SinkOptions", fields, false⟩

def ofTuple (values : Tuple [String, String, String]) : SinkOptions :=
  let (location, columns, openMark, ()) := values
  ⟨location, columns, openMark⟩

def toTuple (options : SinkOptions) : Tuple [String, String, String] :=
  (options.location, options.columns, options.openMark, ())

def codec : Codec SinkOptions :=
  .record format toTuple ofTuple

end SinkOptions

end CommitCoordinator
