/-!
# File systems

The operations that the coordinator needs from the machine it runs on. Each of them can fail for
a reason that the operating system gives.
-/

namespace CommitCoordinator.Storage

/-- Why a file operation failed. -/
inductive OsError where
  | notFound
  | fileExists
  | notADirectory
  | isADirectory
  | nameTooLong
  | tooManyLinks
  | nulInPath
  /-- The bytes of a file are not UTF-8. -/
  | notText
  | other (text : String)
deriving DecidableEq, Repr

def OsError.message : OsError → String
  | .notFound => "No such file or directory (os error 2)"
  | .fileExists => "File exists (os error 17)"
  | .notADirectory => "Not a directory (os error 20)"
  | .isADirectory => "Is a directory (os error 21)"
  | .nameTooLong => "File name too long (os error 36)"
  | .tooManyLinks => "Too many levels of symbolic links (os error 40)"
  | .nulInPath => "file name contained an unexpected NUL byte"
  | .notText => "stream did not contain valid UTF-8"
  | .other text => text

/-- What a directory says about one of its entries, without following links. -/
structure Listed where
  name : String
  isDir : Bool
  size : UInt64
deriving DecidableEq, Repr

/-- A monad with access to files. -/
class MonadFileSystem (m : Type → Type) where
  readFile : String → m (Except OsError (List UInt8))
  /-- Replaces the content of a file, which may be new. -/
  writeFile : String → List UInt8 → m (Except OsError Unit)
  /-- Creates a directory and those above it unless they exist. -/
  createDirs : String → m (Except OsError Unit)
  /-- Moves a file to another path in one step, replacing what is there. -/
  rename : String → String → m (Except OsError Unit)
  isFile : String → m Bool
  listDir : String → m (Except OsError (List Listed))

instance {σ : Type} {m : Type → Type} [Monad m] [MonadFileSystem m] :
    MonadFileSystem (StateT σ m) where
  readFile path := StateT.lift (MonadFileSystem.readFile path)
  writeFile path content := StateT.lift (MonadFileSystem.writeFile path content)
  createDirs path := StateT.lift (MonadFileSystem.createDirs path)
  rename source target := StateT.lift (MonadFileSystem.rename source target)
  isFile path := StateT.lift (MonadFileSystem.isFile path)
  listDir path := StateT.lift (MonadFileSystem.listDir path)

export MonadFileSystem (readFile writeFile createDirs rename isFile listDir)

end CommitCoordinator.Storage
