import CommitCoordinator.CommandLine
import CommitCoordinator.Router.Replay
import CommitCoordinator.SocketAddress

/-!
# The program

The program loads a configuration, builds a router and replays a stream of events. What it prints
and the code that it exits with follow from the result.
-/

namespace CommitCoordinator

open Storage

/-- Checks the address that metrics are served at. -/
def checkAddress (address : String) : Except RunError Unit :=
  if (SocketAddress.parse? address).isSome then .ok () else .error .badAddress

namespace Program

variable {m : Type → Type} [Monad m] [Url.DomainNames] [MonadFileSystem m] [MonadObjectStore m]
  [MonadMetrics m] [MonadFresh m] [MonadClock m]

/-- Replays events, from a file or else from a stream that is read then, over a configuration. -/
def replayWith (config : Config) (events : Option String) (stream : m (List UInt8))
    (restored : Bool) : m (Except RunError ReplaySummary) := do
  match ← Router.ofConfig config with
  | .error e => return .error e
  | .ok router =>
    match ← router.launch restored with
    | (.error e, _) => return .error e
    | (.ok (), router) =>
      let (result, _) ← match events with
        | some path => router.replayFile path
        | none => router.replay (← stream)
      return result

/-- Runs the program with a command line. -/
def run (env : Template.Environment) (line : CommandLine) (stream : m (List UInt8)) :
    m (Except RunError ReplaySummary) := do
  match ← Config.ofSources env line.sources with
  | .error e => return .error (.config e)
  | .ok config =>
    match checkAddress config.metricsAddress with
    | .error e => return .error e
    | .ok () => replayWith config line.events stream (!line.fresh)

/-! ## Outcomes -/

/-- How the program ends. -/
inductive Outcome where
  | usage (error : UsageError)
  | noSources
  | finished (result : Except RunError ReplaySummary)

namespace Outcome

def exitCode : Outcome → Nat
  | .usage .helpWanted => 0
  | .usage .versionWanted => 0
  | .usage _ => 2
  | .noSources => 1
  | .finished (.ok _) => 0
  | .finished (.error _) => 1

/-- The line that tells the version. -/
def versionLine : String := "soulsink 0.1.0\n"

def helpText : String :=
  "Checkpoint-aligned lakehouse commit coordinator\n\n" ++
  "Usage: soulsink [OPTIONS]\n\n" ++
  "Options:\n" ++
  "  -c, --config <CONFIG>           " ++
    "Path to configuration file (can be specified multiple times)\n" ++
  "  -C, --config-dir <CONFIG_DIRS>  " ++
    "Path to configuration directory (can be specified multiple times)\n" ++
  "  -e, --events <EVENTS>           " ++
    "Newline-delimited JSON host events; stdin when omitted\n" ++
  "      --fresh                     " ++
    "Ignore stored trigger state and start every table empty\n" ++
  "  -h, --help                      Print help\n" ++
  "  -V, --version                   Print version\n"

/-- What goes to the standard output. -/
def output : Outcome → String
  | .usage .helpWanted => helpText
  | .usage .versionWanted => versionLine
  | _ => ""

/-- The complaint about arguments. -/
def usageComplaint : UsageError → String
  | .unknownArgument => "error: unexpected argument found\n"
  | .invalidValue => "error: a value is required but none was supplied\n"
  | .argumentConflict => "error: the argument cannot be used multiple times\n"
  | .tooManyValues => "error: unexpected value found; no more were expected\n"
  | .helpWanted => ""
  | .versionWanted => ""

/-- What goes to the standard error. -/
def complaint : Outcome → String
  | .usage e => usageComplaint e
  | .noSources => "Error: no config files or directories specified\n"
  | .finished (.ok _) => ""
  | .finished (.error e) => s!"soulsink failed: {e.message}\n"

end Outcome

/-- Runs the program with its arguments. -/
def execute (env : Template.Environment) (arguments : List String) (stream : m (List UInt8)) :
    m Outcome := do
  match CommandLine.parse arguments with
  | .error e => return .usage e
  | .ok line =>
    if line.sources = [] then return .noSources
    else return .finished (← run env line stream)

end Program

end CommitCoordinator
