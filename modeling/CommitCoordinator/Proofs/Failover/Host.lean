import CommitCoordinator.Proofs.Coordinator.Protocol

/-!
# Coordinators that crash and come back

A host runs the coordinator of a table over one store. The coordinator may crash at any moment,
also in the middle of a call, and only what the store holds outlives it. The host then starts a
coordinator from the store and, before anything else, delivers the reports again that were
accepted since a snapshot was last stored with success.
-/

namespace CommitCoordinator

open Dialogue

/-- What happened outside of a coordinator: it accepted a report or its call was answered. -/
inductive Moment where
  | accepted (report : Report)
  | exchanged (exchange : Exchange)

namespace Step

/-- The report of a step if it is accepted. -/
def accepted? (step : Step) : Option Report :=
  match step.event with
  | .record report =>
    match step.before.receive report with
    | .ok _ => some report
    | .error _ => none
  | _ => none

/-- What happens in a step that comes as far as the given calls. -/
def moments (step : Step) (answered : List Exchange) : List Moment :=
  step.accepted?.toList.map .accepted ++ answered.map .exchanged

end Step

/-- Whether a call writes to the store. -/
def Exchange.isStore (exchange : Exchange) : Bool :=
  match exchange.call with
  | .store _ => true
  | _ => false

/-- What a store may hold after calls. A write that fails may have taken effect or not. -/
inductive Persists : List Snapshot → List Exchange → List Snapshot → Prop where
  | nil (stored : List Snapshot) : Persists stored [] stored
  | stored {before snapshots after : List Snapshot} {rest : List Exchange}
      (h : Persists snapshots rest after) :
      Persists before (⟨.store snapshots, .ok ()⟩ :: rest) after
  | lost {before snapshots after : List Snapshot} {rest : List Exchange} (cause : StateError)
      (h : Persists before rest after) :
      Persists before (⟨.store snapshots, .error cause⟩ :: rest) after
  | kept {before snapshots after : List Snapshot} {rest : List Exchange} (cause : StateError)
      (h : Persists snapshots rest after) :
      Persists before (⟨.store snapshots, .error cause⟩ :: rest) after
  | elsewhere {before after : List Snapshot} {exchange : Exchange} {rest : List Exchange}
      (hstore : exchange.isStore = false) (h : Persists before rest after) :
      Persists before (exchange :: rest) after

/-- A host with its store, its coordinator unless that is down, and what it knows of reports. -/
structure Host where
  stored : List Snapshot
  coordinator : Option Coordinator
  /-- The reports that are still to be delivered again. -/
  queue : List Report
  /-- The reports accepted since a snapshot was last stored with success. -/
  window : List Report
  history : List Moment

namespace Host

/-- Whether an event may come now. Reports that are delivered again come first. -/
def Admits (host : Host) : HostEvent → Prop
  | .record report => ∀ next ∈ host.queue.head?, report = next
  | .watermark _ => True
  | .checkpoint _ => host.queue = []

def queueAfter (host : Host) : HostEvent → List Report
  | .record _ => host.queue.tail
  | _ => host.queue

/-- The window with a report that is accepted for the first time. -/
def grownWindow (host : Host) (step : Step) : List Report :=
  host.window ++ if host.queue = [] then step.accepted?.toList else []

/-- The window after a step; a snapshot that was stored with success empties it. -/
def windowAfter (host : Host) (step : Step) : List Report :=
  match step.event, step.result with
  | .checkpoint _, .ok _ => []
  | _, _ => host.grownWindow step

/-- What may happen to a host: a launch that comes to its end or not, an event that is handled to
the end or not, or a crash between events. Only the first launch may ignore the store. -/
inductive Next (label : String) (options : SinkOptions) : Host → Host → Prop where
  | launch {host : Host} {restored : Bool} {transcript : List Exchange}
      {result : Except CommitError Unit} {after : Coordinator} (hdown : host.coordinator = none)
      (hrestored : restored = false → host.history = [])
      (hlaunch : Yields ((Coordinator.new label options).launch store restored) transcript
        (result, after))
      (hload : ∀ loaded, (⟨.load, loaded⟩ : Exchange) ∈ transcript →
        loaded = .ok host.stored ∨ ∃ cause, loaded = .error cause) :
      Next label options host
        { host with
          coordinator := if result.toBool then some after else none
          queue := host.window
          history := host.history ++ transcript.map .exchanged }
  | abandon {host : Host} {restored : Bool} {transcript answered : List Exchange}
      {result : Except CommitError Unit} {after : Coordinator} (hdown : host.coordinator = none)
      (hlaunch : Yields ((Coordinator.new label options).launch store restored) transcript
        (result, after))
      (hanswered : answered <+: transcript) :
      Next label options host { host with history := host.history ++ answered.map .exchanged }
  | handle {host : Host} {step : Step} {stored : List Snapshot}
      (hup : host.coordinator = some step.before) (hstep : step.Valid)
      (hturn : host.Admits step.event) (hstored : Persists host.stored step.transcript stored) :
      Next label options host
        { stored
          coordinator := some step.after
          queue := host.queueAfter step.event
          window := host.windowAfter step
          history := host.history ++ step.moments step.transcript }
  | interrupt {host : Host} {step : Step} {answered seen : List Exchange} {stored : List Snapshot}
      (hup : host.coordinator = some step.before) (hstep : step.Valid)
      (hturn : host.Admits step.event) (hanswered : answered <+: seen)
      (hseen : seen <+: step.transcript) (hstored : Persists host.stored seen stored) :
      Next label options host
        { stored
          coordinator := none
          queue := []
          window := host.grownWindow step
          history := host.history ++ step.moments answered }
  | stop {host : Host} : Next label options host { host with coordinator := none, queue := [] }

/-- The states that a host may come to. -/
inductive Reaches (label : String) (options : SinkOptions) : Host → Prop where
  | start (stored : List Snapshot) : Reaches label options ⟨stored, none, [], [], []⟩
  | next {host after : Host} (h : Reaches label options host)
      (hnext : Next label options host after) : Reaches label options after

end Host

end CommitCoordinator
