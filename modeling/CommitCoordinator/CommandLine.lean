import CommitCoordinator.Config.Load

/-!
# The command line

The command line names configuration files and directories, and perhaps a file of events. A value
follows its option as the next argument or is attached to it. An option that still waits for its
value, or whose value has not been looked at, is settled when the next option is met, so a fault
in it is reported before faults that come later, except for arguments that are not known at all.
-/

namespace CommitCoordinator

/-- What the arguments of the program ask for. -/
structure CommandLine where
  files : List String
  dirs : List String
  /-- The file of events; the standard input if there is none. -/
  events : Option String
  /-- Whether stored snapshots are ignored. -/
  fresh : Bool
deriving DecidableEq, Repr

/-- Why the program does not run with its arguments. -/
inductive UsageError where
  | unknownArgument
  /-- A value is missing or empty. -/
  | invalidValue
  /-- An option is repeated that may be given once. -/
  | argumentConflict
  /-- A value is attached to an option that takes none. -/
  | tooManyValues
  | helpWanted
  | versionWanted
deriving DecidableEq, Repr

namespace CommandLine

def empty : CommandLine :=
  ⟨[], [], none, false⟩

/-- The sources of the configuration, files first. -/
def sources (line : CommandLine) : List ConfigSource :=
  line.files.map .file ++ line.dirs.map .dir

/-! ## Options -/

/-- Options with a value. -/
inductive Setting where
  | file
  | dir
  | events
deriving DecidableEq, Repr

/-- Options without a value. -/
inductive Switch where
  | fresh
  | help
  | version
deriving DecidableEq, Repr

/-- What an option means. -/
inductive Meaning where
  | setting (setting : Setting)
  | switch (switch : Switch)
deriving DecidableEq, Repr

def longMeaning? (name : String) : Option Meaning :=
  if name = "config" then some (.setting .file)
  else if name = "config-dir" then some (.setting .dir)
  else if name = "events" then some (.setting .events)
  else if name = "fresh" then some (.switch .fresh)
  else if name = "help" then some (.switch .help)
  else if name = "version" then some (.switch .version)
  else none

def shortMeaning? : Char → Option Meaning
  | 'c' => some (.setting .file)
  | 'C' => some (.setting .dir)
  | 'e' => some (.setting .events)
  | 'h' => some (.switch .help)
  | 'V' => some (.switch .version)
  | _ => none

/-- Gives a value to an option. -/
def assign (line : CommandLine) (setting : Setting) (value : String) :
    Except UsageError CommandLine :=
  match setting with
  | .events =>
    if line.events.isSome then .error .argumentConflict
    else if value = "" then .error .invalidValue
    else .ok { line with events := some value }
  | .file =>
    if value = "" then .error .invalidValue else .ok { line with files := line.files ++ [value] }
  | .dir =>
    if value = "" then .error .invalidValue else .ok { line with dirs := line.dirs ++ [value] }

/-- Turns on an option without a value. -/
def turnOn (line : CommandLine) : Switch → Except UsageError CommandLine
  | .fresh => if line.fresh then .error .argumentConflict else .ok { line with fresh := true }
  | .help => .error .helpWanted
  | .version => .error .versionWanted

/-! ## Reading -/

/-- An option that is not settled, with its value if that has been read. -/
structure Open where
  setting : Setting
  value : Option String
deriving DecidableEq, Repr

/-- What has been read so far. -/
structure Reading where
  line : CommandLine
  unsettled : Option Open
deriving DecidableEq, Repr

namespace Reading

/-- Settles the option that is open. -/
def settle (reading : Reading) : Except UsageError CommandLine :=
  match reading.unsettled with
  | none => .ok reading.line
  | some ⟨_, none⟩ => .error .invalidValue
  | some ⟨setting, some value⟩ => reading.line.assign setting value

/-- Reads an option whose value is attached or still to come. -/
def set (reading : Reading) (setting : Setting) (attached : Option String) :
    Except UsageError Reading := do
  let line ← reading.settle
  match attached with
  | some value => return ⟨← line.assign setting value, none⟩
  | none => return ⟨line, some ⟨setting, none⟩⟩

def turnOn (reading : Reading) (switch : Switch) : Except UsageError Reading := do
  return ⟨← (← reading.settle).turnOn switch, none⟩

/-- Reads an option of a long name. -/
def long (reading : Reading) (text : List Char) : Except UsageError Reading :=
  let name := text.takeWhile (· ≠ '=')
  let attached := match text.dropWhile (· ≠ '=') with
    | _ :: value => some (String.ofList value)
    | [] => none
  match longMeaning? (String.ofList name) with
  | none => .error .unknownArgument
  | some (.setting setting) => reading.set setting attached
  | some (.switch switch) =>
    if attached.isSome then .error .tooManyValues else reading.turnOn switch

/-- Reads options of one letter; the first that takes a value takes the rest. -/
def short (reading : Reading) : List Char → Except UsageError Reading
  | [] => .ok reading
  | c :: rest =>
    match shortMeaning? c with
    | none => .error .unknownArgument
    | some (.switch switch) => do (← reading.turnOn switch).short rest
    | some (.setting setting) =>
      reading.set setting <|
        match rest with
        | [] => none
        | '=' :: value => some (String.ofList value)
        | value => some (String.ofList value)

/-- Reads an argument that is no option. -/
def value (reading : Reading) (text : String) : Except UsageError Reading :=
  match reading.unsettled with
  | some ⟨setting, none⟩ => .ok { reading with unsettled := some ⟨setting, some text⟩ }
  | _ => .error .unknownArgument

def argument (reading : Reading) (text : String) : Except UsageError Reading :=
  match text.toList with
  | '-' :: '-' :: name => reading.long name
  | '-' :: c :: letters => reading.short (c :: letters)
  | _ => reading.value text

end Reading

/-- Reads arguments in order; two dashes end the options, and nothing may follow them. -/
def readArguments (reading : Reading) : List String → Except UsageError CommandLine
  | [] => reading.settle
  | text :: rest =>
    if text = "--" then
      match rest with
      | [] => reading.settle
      | _ => .error .unknownArgument
    else do readArguments (← reading.argument text) rest

/-- The command line of the arguments after the name of the program. -/
def parse (arguments : List String) : Except UsageError CommandLine :=
  readArguments ⟨empty, none⟩ arguments

end CommandLine

end CommitCoordinator
