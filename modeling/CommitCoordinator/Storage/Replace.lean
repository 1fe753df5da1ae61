import CommitCoordinator.Storage.FileName
import CommitCoordinator.Storage.FileSystem

/-!
# Replacing a file in one step

New content is written beside a file and then moved over it, so whoever reads the file sees the
old content or the new, never a part of either.
-/

namespace CommitCoordinator.Storage

/-- A failed file operation and the path it was about. -/
structure FileFault where
  path : String
  cause : OsError
deriving DecidableEq, Repr

/-- The extension of the file that new content is written to first. -/
def draftExtension : String := "json.tmp"

/-- The path that new content for a file is written to first. -/
def draftPath (path : String) : String :=
  withExtension path draftExtension

variable {m : Type → Type} [Monad m] [MonadFileSystem m]

/-- Runs a file operation about a path. -/
def attempt {α : Type} (path : String) (action : m (Except OsError α)) :
    ExceptT FileFault m α :=
  ExceptT.mk do return (← action).mapError (FileFault.mk path)

/-- Creates the directory of a file if the path names one. -/
def createParent (path : String) : ExceptT FileFault m Unit :=
  match parent? path with
  | some parent => attempt parent (createDirs parent)
  | none => pure ()

/-- Replaces the content of a file, creating its directory and those above it. -/
def replaceFile (path : String) (content : List UInt8) : ExceptT FileFault m Unit := do
  createParent path
  attempt (draftPath path) (writeFile (draftPath path) content)
  attempt path (rename (draftPath path) path)

/-- The content of a file, absent if there is no such file. -/
def readIfPresent (path : String) : ExceptT FileFault m (Option (List UInt8)) := do
  match ← (readFile path : m _) with
  | .ok content => return some content
  | .error .notFound => return none
  | .error cause => throw ⟨path, cause⟩

end CommitCoordinator.Storage
