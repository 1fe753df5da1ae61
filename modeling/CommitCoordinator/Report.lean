import CommitCoordinator.Data.Record

/-!
# Writer reports

A writer reports that it has closed the files it wrote for a checkpoint. All writers of a table
run in parallel; each report names the writer's task and the number of tasks.
-/

namespace CommitCoordinator

open Data

/-- A writer's statement that its files for a checkpoint are closed. -/
structure Report where
  checkpoint : Int64
  task : UInt32
  taskCount : UInt32
  table : String
  /-- Text that the paths of the task's files contain. -/
  fileMark : String
  /-- The partitions that the task wrote to. -/
  partitions : SortedSet
deriving DecidableEq

/-- The checkpoint of the last drain of a bounded stream. -/
def endOfInput : Int64 :=
  Int64.maxValue

namespace Report

/-- Whether the report belongs to the last checkpoint of the stream. -/
def isEndOfInput (report : Report) : Bool :=
  report.checkpoint = endOfInput

def fields : Fields [Int64, UInt32, UInt32, String, String, SortedSet] :=
  .cons (.required "checkpoint_id" .int64) <|
  .cons (.required "task_id" .uint32) <|
  .cons (.required "number_of_tasks" .uint32) <|
  .cons (.required "table_name" .text) <|
  .cons (.required "task_data_path" .text) <|
  .cons (.defaulted "partitions" .sortedSet .empty) .nil

def codec : Codec Report :=
  .record ⟨recordTitle "DataInfo", fields, false⟩
    (fun r ↦ (r.checkpoint, r.task, r.taskCount, r.table, r.fileMark, r.partitions, ()))
    (fun (checkpoint, task, taskCount, table, fileMark, partitions, ()) ↦
      ⟨checkpoint, task, taskCount, table, fileMark, partitions⟩)

end Report

end CommitCoordinator
