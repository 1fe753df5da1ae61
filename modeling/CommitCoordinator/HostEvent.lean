import CommitCoordinator.Json.Reader
import CommitCoordinator.Report

/-!
# Host events

The host delivers reports, watermarks and checkpoints in one stream. In its written form an event
is a map whose member `kind` tells what the other members mean; these are read only once the
kind is known.
-/

namespace CommitCoordinator

open Data

/-- What the host tells the coordinators. -/
inductive HostEvent where
  | record (report : Report)
  | watermark (timestamp : Int64)
  | checkpoint (id : Int64)
deriving DecidableEq

namespace HostEvent

/-- The kind of an event. -/
inductive Kind where
  | record
  | watermark
  | checkpoint
deriving DecidableEq, Repr

def kinds : List (String × Kind) :=
  [("record", .record), ("watermark", .watermark), ("checkpoint", .checkpoint)]

def Kind.name : Kind → String
  | .record => "record"
  | .watermark => "watermark"
  | .checkpoint => "checkpoint"

def kindField : String := "kind"

def watermarkFormat : RecordFormat [Int64] :=
  ⟨"struct variant HostEvent::Watermark", .cons (.required "timestamp" .int64) .nil, false⟩

def checkpointFormat : RecordFormat [Int64] :=
  ⟨"struct variant HostEvent::Checkpoint", .cons (.required "checkpoint_id" .int64) .nil, false⟩

/-- Reads an event of a known kind from the remaining members or items. -/
def ofContent (content : Value) : Kind → Except Complaint HostEvent
  | .record => .record <$> Report.codec.decode content
  | .watermark => do return .watermark (← watermarkFormat.decode content).1
  | .checkpoint => do return .checkpoint (← checkpointFormat.decode content).1

def decodeKind (value : Value) : Except Complaint Kind := do
  variantOf kinds (← decodeText "variant identifier" value)

/-- Separates the kind from the other members. -/
def splitKind : Option Kind → List (Value × Value) →
    Except Complaint (Option Kind × List (Value × Value))
  | kind, [] => .ok (kind, [])
  | kind, (key, value) :: rest => do
    match key with
    | .string name =>
      if name = kindField then
        if kind.isSome then complain (.duplicateField kindField)
        else splitKind (some (← decodeKind value)) rest
      else
        let held ← hold value
        let (kind, members) ← splitKind kind rest
        return (kind, (.string name, held) :: members)
    | _ => complain .malformed

def decode : Value → Except Complaint HostEvent
  | .map members => do
    let (kind, content) ← splitKind none members
    match kind with
    | some kind => ofContent (.map content) kind
    | none => complain (.missingField kindField)
  | .list _ [] => complain (.missingField kindField)
  | .list _ (first :: rest) => do
    let kind ← decodeKind first
    ofContent (.list .held (← holdItems 0 rest)) kind
  | value => mismatch "internally tagged enum HostEvent" value

/-- The members beside the kind. -/
def members : HostEvent → List (String × Value)
  | .record report =>
    Report.fields.encode (report.checkpoint, report.task, report.taskCount, report.table,
      report.fileMark, report.partitions, ())
  | .watermark timestamp => watermarkFormat.fields.encode (timestamp, ())
  | .checkpoint id => checkpointFormat.fields.encode (id, ())

def kind : HostEvent → Kind
  | .record _ => .record
  | .watermark _ => .watermark
  | .checkpoint _ => .checkpoint

def codec : Codec HostEvent where
  encode event := .ofMembers ((kindField, .string event.kind.name) :: event.members)
  decode := decode

end HostEvent

end CommitCoordinator
