import CommitCoordinator.Storage.Listing
import CommitCoordinator.Text.Infix

/-!
# Finding the files of a task
-/

namespace CommitCoordinator

open Storage Text

/-- A closed file of a task. -/
structure ScannedFile where
  path : String
  size : UInt64
deriving DecidableEq, Repr

/-- Whether an entry is a closed file of a task: a file whose path contains the task's mark and
not the mark of open files. -/
def isTaskFile (openMark fileMark : String) (entry : Entry) : Bool :=
  !entry.isDir && containsText entry.path fileMark && !containsText entry.path openMark

/-- The closed files of a task among entries, in their order. -/
def taskFiles (openMark fileMark : String) (entries : List Entry) : List ScannedFile :=
  (entries.filter (isTaskFile openMark fileMark)).map fun entry ↦ ⟨entry.path, entry.size⟩

/-- The closed files of a task in a directory. -/
def scan {m : Type → Type} [Monad m] (listing : Listing m) (openMark directory fileMark : String) :
    m (Except StorageError (List ScannedFile)) := do
  return (← listing directory).map (taskFiles openMark fileMark)

end CommitCoordinator
