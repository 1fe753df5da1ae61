import CommitCoordinator.Program
import Std.Time.DateTime.Timestamp

/-!
# Running the program on a machine

Files, identifiers, the clock and the standard streams of the machine are connected to the
program here, and nothing is decided. Metrics are not served.
-/

namespace CommitCoordinator

open Storage

/-- The code that a failed operation reports. -/
def reportedCode : IO.Error → UInt32
  | .alreadyExists _ code _ => code
  | .noFileOrDirectory _ code _ => code
  | .invalidArgument _ code _ => code
  | .resourceExhausted _ code _ => code
  | .inappropriateType _ code _ => code
  | .noSuchThing _ code _ => code
  | .otherError code _ => code
  | .unsatisfiedConstraints code _ => code
  | _ => 0

/-- The error number of a failed operation, whose report may carry it negated. -/
def errorNumber (e : IO.Error) : UInt32 :=
  let code := reportedCode e
  if code < 0x80000000 then code else 0 - code

/-- The cause of a failed operation. -/
def Storage.OsError.ofError (e : IO.Error) : OsError :=
  match errorNumber e with
  | 2 => .notFound
  | 17 => .fileExists
  | 20 => .notADirectory
  | 21 => .isADirectory
  | 36 => .nameTooLong
  | 40 => .tooManyLinks
  | _ => .other (toString e)

/-- Carries out an operation on files and catches its failure. -/
def carryOut {α : Type} (path : String) (action : IO α) : IO (Except OsError α) := do
  if path.toList.contains '\x00' then return .error .nulInPath
  else
    try return .ok (← action)
    catch e => return .error (.ofError e)

/-- The entries of a directory as they are, links included. -/
def entriesOf (path : String) : IO (List Listed) := do
  let entries ← (← IO.FS.realPath path).readDir
  entries.toList.mapM fun entry ↦ do
    let metadata ← entry.path.symlinkMetadata
    return ⟨entry.fileName, metadata.type == .dir, metadata.byteSize⟩

instance : MonadFileSystem IO where
  readFile path := carryOut path do return (← IO.FS.readBinFile path).toList
  writeFile path content := carryOut path (IO.FS.writeBinFile path (.mk content.toArray))
  createDirs path := carryOut path do if path ≠ "" then IO.FS.createDirAll path
  rename source target := carryOut source (IO.FS.rename source target)
  isFile path := do
    match ← carryOut path do return (← (← IO.FS.realPath path).metadata).type == .file with
    | .ok isFile => return isFile
    | .error _ => return false
  listDir path := carryOut path (entriesOf path)

/-- No store but the files of the machine is connected. -/
instance : MonadObjectStore IO where
  listStore address _ := return .error address.unreachable

instance : MonadMetrics IO where
  emit _ := return ()

instance : MonadFresh IO where
  freshId := do
    let bytes ← IO.getRandomBytes 16
    return .ofNumber (bytes.toList.foldl (fun number byte ↦ number * 256 + byte.toNat) 0)

instance : MonadClock IO where
  currentTime := do
    let now ← Std.Time.Timestamp.now
    return Int64.ofInt now.toMillisecondsSinceUnixEpoch.val

/-- Reads a stream up to its end. -/
partial def readAll (stream : IO.FS.Stream) (done : ByteArray) : IO ByteArray := do
  let chunk ← stream.read 65536
  if chunk.isEmpty then return done else readAll stream (done ++ chunk)

/-- The variables of a block of `NAME=value` entries that end in zero bytes. -/
def environmentOf (block : List UInt8) : Template.Environment :=
  let entries := ((String.ofList (Text.decodeLossy block)).splitOn "\x00").map fun entry ↦
    (String.ofList (entry.toList.takeWhile (· ≠ '=')),
      String.ofList ((entry.toList.dropWhile (· ≠ '=')).drop 1))
  fun name ↦ (entries.find? fun entry ↦ entry.1 = name).map Prod.snd

/-- The environment of the process. -/
def readEnvironment : IO Template.Environment := do
  match ← (readFile "/proc/self/environ" : IO _) with
  | .ok block => return environmentOf block
  | .error _ => return fun _ ↦ none

end CommitCoordinator

open CommitCoordinator in
/-- Runs the program and exits with its code. -/
def main (arguments : List String) : IO UInt32 := do
  let stream : IO (List UInt8) := do
    return (← readAll (← IO.getStdin) .empty).toList
  let outcome ← Program.execute (← readEnvironment) arguments stream
  (← IO.getStdout).putStr outcome.output
  (← IO.getStderr).putStr outcome.complaint
  return outcome.exitCode.toUInt32
