import CommitCoordinator.Router.Basic
import CommitCoordinator.Text.Blank

/-!
# Replaying a stream of events

A stream is a text with one event on each line; blank lines are passed over. Events are delivered
as they are read, up to the first line that cannot be read or whose event fails.
-/

namespace CommitCoordinator

open Storage

/-- What a replay did. -/
structure ReplaySummary where
  events : Nat
  commits : Nat
deriving DecidableEq, Repr

/-- Separates lines, which end in a newline; the last may end with the text. -/
def splitLines : List UInt8 → List (List UInt8)
  | [] => []
  | byte :: rest =>
    if byte = 0x0A then [] :: splitLines rest
    else
      match splitLines rest with
      | line :: lines => (byte :: line) :: lines
      | [] => [[byte]]

/-- What a line of a stream says. -/
inductive StreamLine where
  | blank
  | event (event : HostEvent)
  | fault (cause : RunError)
deriving DecidableEq

/-- Reads the line of a number. -/
def StreamLine.read (number : Nat) (bytes : List UInt8) : StreamLine :=
  match Text.utf8Fault? bytes with
  | some _ => .fault (.eventsNotText number)
  | none =>
    let text := String.ofList (Text.decodeLossy bytes)
    if Text.isBlank text then .blank
    else
      match Json.decodeText HostEvent.codec text with
      | .ok decoded => .event decoded
      | .error problem => .fault (.badEvent number problem)

namespace Router

variable {m : Type → Type} [Monad m] [MonadFileSystem m] [MonadMetrics m] [MonadFresh m]
  [MonadClock m]

/-- Replays lines after those that have been counted, and counts the events. -/
def replayLines (number events : Nat) :
    List (List UInt8) → Router m → m (Except RunError Nat × Router m)
  | [], router => return (.ok events, router)
  | line :: rest, router => do
    match StreamLine.read (number + 1) line with
    | .blank => replayLines (number + 1) events rest router
    | .fault e => return (.error e, router)
    | .event event =>
      match ← router.deliver event with
      | (.ok (), router) => replayLines (number + 1) (events + 1) rest router
      | (.error e, router) => return (.error e, router)

/-- Replays a stream. -/
def replay (content : List UInt8) (router : Router m) :
    m (Except RunError ReplaySummary × Router m) := do
  let (result, after) ← replayLines 0 0 (splitLines content) router
  return (result.map fun events ↦ ⟨events, after.commitCount - router.commitCount⟩, after)

/-- The error for a file of events that cannot be read. A directory can be opened, so it fails at
the first line and not before. -/
def eventsFault : OsError → RunError
  | .isADirectory => .unreadableEvents 1 .isADirectory
  | cause => .unreadableEvents 0 cause

/-- Replays the stream in a file. -/
def replayFile (path : String) (router : Router m) :
    m (Except RunError ReplaySummary × Router m) := do
  match ← readFile path with
  | .ok content => router.replay content
  | .error cause => return (.error (eventsFault cause), router)

end Router

end CommitCoordinator
