import CommitCoordinator.Proofs.Coordinator.TwoPhase
import CommitCoordinator.Proofs.Failover.Coverage

/-!
# Refused calls leave no trace

A host launches a coordinator, delivers events to it and may do both in any order, any number of
times. A call is refused if it comes before the launch or repeats it, if its report does not fit
the quorum, or if the store fails. The coordinator is then as it was before the call, the catalog
has not been asked anything, and a life without the refused calls ends alike.
-/

namespace CommitCoordinator

open Dialogue

/-! ## Nothing is changed before a report has been checked -/

namespace Coordinator

/-- Takes a report in by one change after the other: the partitions become pending first, and then
the writer is counted, in a quorum that its first report sets up. What has been changed stays if a
later part fails. -/
def receiveInParts (report : Report) (coordinator : Coordinator) :
    Except CommitError Bool × Coordinator :=
  if !coordinator.isInitialized then (.error .notInitialized, coordinator)
  else
    match coordinator.quorumFor report with
    | .error cause => (.error (.quorum cause), coordinator)
    | .ok _ =>
      let observed : Coordinator := { coordinator with
        pending := coordinator.pending.map (·.observeAll report.partitions.elements) }
      match observed.quorum.elim (Quorum.create report.taskCount) .ok with
      | .error cause => (.error (.quorum cause), observed)
      | .ok quorum =>
        let (counted, completed) := quorum.add report.checkpoint report.task
        (.ok completed, { observed with quorum := some counted })

/-- The check refuses all that a later part would fail on, so no part of a refused report is
taken in. -/
theorem receiveInParts_eq (report : Report) (before : Coordinator) :
    before.receiveInParts report =
      match before.receive report with
      | .error cause => (.error cause, before)
      | .ok (received, completed) => (.ok completed, received) := by
  obtain ⟨label, options, pending, quorum, watermark⟩ := before
  cases pending with
  | none => rfl
  | some pending =>
    cases hquorum : quorumFor ⟨label, options, some pending, quorum, watermark⟩ report with
    | error cause => simp [receiveInParts, receive, isInitialized, hquorum]
    | ok known =>
      obtain ⟨-, hknown | ⟨hknown, hcreate⟩⟩ := quorumFor_eq_ok.1 hquorum
      · cases hknown
        simp [receiveInParts, receive, isInitialized, hquorum]
      · cases hknown
        simp [receiveInParts, receive, isInitialized, hquorum, hcreate]

end Coordinator

/-! ## The calls of a host -/

/-- A call of the host of a coordinator. -/
inductive HostCall where
  | launch (restored : Bool)
  | deliver (event : HostEvent)
deriving DecidableEq

section Serve

variable {m : Type → Type} [Monad m] [MonadMetrics m] [MonadFresh m] [MonadClock m]

/-- Answers a call of the host. Only a report can have a summary. -/
def Coordinator.serve (services : Services m) (store : SnapshotStore m) (call : HostCall)
    (coordinator : Coordinator) : m (Except CommitError (Option CommitSummary) × Coordinator) :=
  match call with
  | .launch restored => do
    let (result, launched) ← coordinator.launch store restored
    return (result.map fun _ ↦ none, launched)
  | .deliver event => coordinator.handle services store event

end Serve

/-- A call that a coordinator answered, with what it asked and how it answered. -/
structure Turn where
  before : Coordinator
  call : HostCall
  transcript : List Exchange
  result : Except CommitError (Option CommitSummary)
  after : Coordinator

/-- Errors of calls that come at the wrong time, do not fit the quorum or find the store failing. -/
def CommitError.isRefusal : CommitError → Bool
  | .notInitialized | .alreadyInitialized | .quorum _ | .state _ => true
  | .catalog _ | .listing _ _ | .rejected _ _ _ | .append _ | .manifest _ => false

namespace Turn

/-- Whether the answers of the surroundings make the coordinator behave as the turn says. -/
def Valid (turn : Turn) : Prop :=
  Yields (turn.before.serve services store turn.call) turn.transcript (turn.result, turn.after)

/-- The turn of a coordinator that gets the given answers. -/
def of (answer : (call : Call) → call.Answer) (before : Coordinator) (call : HostCall) : Turn :=
  let (transcript, result, after) := replay answer (before.serve services store call)
  ⟨before, call, transcript, result, after⟩

theorem valid_of (answer : (call : Call) → call.Answer) (before : Coordinator) (call : HostCall) :
    (of answer before call).Valid :=
  yields_replay answer _

def isRefused (turn : Turn) : Bool :=
  match turn.result with
  | .error cause => cause.isRefusal
  | .ok _ => false

/-- The call of the host and the answers of the surroundings. -/
def script (turn : Turn) : HostCall × List Exchange :=
  (turn.call, turn.transcript)

variable {turn : Turn}

theorem Valid.launched (h : turn.Valid) {restored : Bool} (hcall : turn.call = .launch restored) :
    ∃ result, Yields (turn.before.launch store restored) turn.transcript (result, turn.after) ∧
      turn.result = result.map fun _ ↦ none := by
  obtain ⟨before, call, transcript, result, after⟩ := turn
  cases hcall
  obtain ⟨front, back, ⟨launched, next⟩, rfl, hlaunch, hrest⟩ := yields_bind.1 h
  obtain ⟨rfl, hresult⟩ := yields_pure.1 hrest
  cases hresult
  rw [List.append_nil]
  exact ⟨launched, hlaunch, rfl⟩

theorem Valid.delivered (h : turn.Valid) {event : HostEvent} (hcall : turn.call = .deliver event) :
    (⟨turn.before, event, turn.transcript, turn.result, turn.after⟩ : Step).Valid := by
  obtain ⟨before, call, transcript, result, after⟩ := turn
  cases hcall
  exact h

end Turn

/-! ## Refused turns -/

/-- Whether a call left the coordinator alone and did not come to the catalog. -/
structure Traceless (before after : Coordinator) (transcript : List Exchange) : Prop where
  unchanged : after = before
  unasked : transcript.filter Exchange.isCatalog = []

theorem Coordinator.isRefusal_resultOf {report : Report} {partitions : List String}
    {attempt : Attempt} {cause : CommitError}
    (h : resultOf report partitions attempt = .error cause) :
    cause.isRefusal = false := by
  cases attempt <;> cases h <;> rfl

theorem Coordinator.Launched.traceless {before after : Coordinator} {restored : Bool}
    {transcript : List Exchange} {cause : CommitError}
    (h : before.Launched restored transcript (.error cause) after) :
    Traceless before after transcript := by
  cases h with
  | twice => exact ⟨rfl, rfl⟩
  | failed => exact ⟨rfl, rfl⟩

theorem Coordinator.Stored.traceless {before : Coordinator} {checkpoint : Int64}
    {transcript : List Exchange} {cause : CommitError}
    (h : before.Stored checkpoint transcript (.error cause)) :
    Traceless before before transcript := by
  cases h with
  | uninitialized => exact ⟨rfl, rfl⟩
  | failed => exact ⟨rfl, rfl⟩

theorem Coordinator.Processed.traceless {before after : Coordinator} {report : Report}
    {transcript : List Exchange} {result : Except CommitError (Option CommitSummary)}
    {cause : CommitError} (h : before.Processed report transcript result after)
    (hresult : result = .error cause) (hrefusal : cause.isRefusal = true) :
    Traceless before after transcript := by
  cases h with
  | @refused violation =>
    refine ⟨rfl, ?_⟩
    cases violation <;> rfl
  | awaited => cases hresult
  | idle => cases hresult
  | attempted =>
    rw [Coordinator.isRefusal_resultOf hresult] at hrefusal
    cases hrefusal

namespace Turn

variable {turn : Turn}

theorem isRefused_eq_true : turn.isRefused = true ↔
    ∃ cause, turn.result = .error cause ∧ cause.isRefusal = true := by
  unfold isRefused
  cases turn.result with
  | error cause => simp
  | ok summary => simp

/-- A refused call leaves no trace. -/
theorem Valid.traceless (h : turn.Valid) (hrefused : turn.isRefused = true) :
    Traceless turn.before turn.after turn.transcript := by
  obtain ⟨cause, hresult, hrefusal⟩ := isRefused_eq_true.1 hrefused
  cases hcall : turn.call with
  | launch restored =>
    obtain ⟨launched, hlaunch, hmap⟩ := h.launched hcall
    rw [hresult] at hmap
    cases launched with
    | error other => exact (Coordinator.launched_of_yields hlaunch).traceless
    | ok value => cases hmap
  | deliver event =>
    have hstep := h.delivered hcall
    cases event with
    | record report => exact (hstep.processed rfl).traceless hresult hrefusal
    | watermark timestamp =>
      obtain ⟨-, hok, -⟩ := hstep.observed rfl
      cases hresult.symm.trans hok
    | checkpoint id =>
      obtain ⟨stored, hstored, hmap, hafter⟩ := hstep.stored rfl
      change turn.after = turn.before at hafter
      change turn.result = _ at hmap
      rw [hresult] at hmap
      cases stored with
      | error other => exact hafter ▸ hstored.traceless
      | ok value => cases hmap

end Turn

/-! ## Lives without refused calls -/

/-- The turns of a coordinator, each from where the one before it ended. -/
inductive Lifetime (start : Coordinator) : List Turn → Coordinator → Prop where
  | nil : Lifetime start [] start
  | snoc {turns : List Turn} {turn : Turn} (hlife : Lifetime start turns turn.before)
      (hturn : turn.Valid) : Lifetime start (turns ++ [turn]) turn.after

namespace Lifetime

variable {start current : Coordinator} {turns : List Turn}

theorem valid (h : Lifetime start turns current) : ∀ turn ∈ turns, turn.Valid := by
  induction h with
  | nil => exact fun turn hmem ↦ absurd hmem List.not_mem_nil
  | snoc _ hturn ih =>
    intro turn hmem
    rcases List.mem_append.1 hmem with hmem | hmem
    · exact ih turn hmem
    · rw [List.mem_singleton.1 hmem]
      exact hturn

/-- Without its refused calls a life goes through the same other turns to the same end. -/
theorem erase_refused (h : Lifetime start turns current) :
    Lifetime start (turns.filter (!·.isRefused)) current := by
  induction h with
  | nil => exact .nil
  | @snoc turns turn _ hturn ih =>
    rw [List.filter_append]
    cases hrefused : turn.isRefused with
    | true =>
      rw [List.filter_cons_of_neg (by simp [hrefused]), List.filter_nil, List.append_nil,
        (hturn.traceless hrefused).unchanged]
      exact ih
    | false =>
      rw [List.filter_cons_of_pos (by simp [hrefused]), List.filter_nil]
      exact ih.snoc hturn

/-- The calls and the answers of the surroundings decide a life. -/
theorem unique (h : Lifetime start turns current) {twins : List Turn} {other : Coordinator}
    (h' : Lifetime start twins other) (hscript : twins.map Turn.script = turns.map Turn.script) :
    twins = turns ∧ other = current := by
  induction h generalizing twins other with
  | nil =>
    obtain rfl := List.map_eq_nil_iff.1 hscript
    generalize hnil : [] = none at h'
    cases h' with
    | nil => exact ⟨rfl, rfl⟩
    | snoc => simp at hnil
  | @snoc turns turn _ hturn ih =>
    cases h' with
    | nil => simp at hscript
    | @snoc twins twin hlife htwin =>
      rw [List.map_append, List.map_append] at hscript
      obtain ⟨hearlier, hlast⟩ := List.append_inj' hscript rfl
      obtain ⟨rfl, hbefore⟩ := ih hlife hearlier
      obtain ⟨before, call, transcript, result, after⟩ := turn
      obtain ⟨before', call', transcript', result', after'⟩ := twin
      cases hlast
      obtain rfl : before' = before := hbefore
      obtain ⟨rfl, rfl⟩ := Prod.mk.inj (htwin.unique hturn)
      exact ⟨rfl, rfl⟩

end Lifetime

namespace Coordinator

/-- As long as no report has been accepted, any number of writers is. -/
theorem exists_receive_of_first {coordinator : Coordinator}
    (hinit : coordinator.isInitialized = true) (hquorum : coordinator.quorum = none)
    {report : Report} (htask : report.task < report.taskCount) :
    ∃ received, coordinator.receive report = .ok received := by
  have hcount : report.taskCount ≠ 0 := by
    intro hzero
    rw [hzero] at htask
    exact UInt32.not_lt_zero htask
  have hfits : report.Fits report.taskCount := ⟨rfl, UInt32.not_le.2 htask⟩
  have hnone (known : Quorum) (hknown : coordinator.quorum = some known) :
      known.total = report.taskCount := by
    rw [hquorum] at hknown
    cases hknown
  obtain ⟨quorum, hfound⟩ := exists_quorumFor hcount hfits hnone
  exact exists_receive hinit hfound

/-- Only a launch that is not a repetition comes to the store. -/
theorem isInitialized_of_state {before after : Coordinator} {restored : Bool}
    {transcript : List Exchange} {cause : StateError}
    (h : Yields (before.launch store restored) transcript (.error (.state cause), after)) :
    before.isInitialized = false := by
  cases hinit : before.isInitialized with
  | false => rfl
  | true =>
    rw [launch, hinit, if_pos rfl] at h
    obtain ⟨-, hresult⟩ := yields_pure.1 h
    cases hresult

/-- A coordinator that has not been launched begins with whatever the store holds. -/
theorem yields_launch {before : Coordinator} (hinit : before.isInitialized = false)
    (stored : List Snapshot) :
    Yields (before.launch store true)
      [⟨.load, .ok stored⟩,
        emitted (.pendingPartitions before.label (Pending.restore stored).size)]
      (.ok (), before.start (Pending.restore stored)) := by
  rw [launch, hinit]
  have hload : Yields store.load [⟨.load, .ok stored⟩] (.ok stored) :=
    yields_ask.2 ⟨Except.ok stored, _, rfl, .done _⟩
  exact hload.bind (yields_ask.2 ⟨(), _, rfl, .done _⟩)

end Coordinator

/-- A call that is refused leaves the coordinator as it was and does not come to the catalog, so a
life without its refused calls has the same other results and the same end. A refused report does
not fix the number of writers, and a launch that found the store failing can be repeated. -/
theorem refused_calls_leave_no_trace {label : String} {options : SinkOptions} {turns : List Turn}
    {current : Coordinator} (h : Lifetime (Coordinator.new label options) turns current) :
    (∀ turn ∈ turns, turn.isRefused = true →
      turn.after = turn.before ∧
        (∀ exchange ∈ turn.transcript, exchange.isCatalog = false) ∧
        (turn.before.isInitialized = true → turn.before.quorum = none →
          ∀ report : Report, report.task < report.taskCount →
            ∃ received, turn.after.receive report = .ok received) ∧
        ∀ restored cause, turn.call = .launch restored → turn.result = .error (.state cause) →
          ∀ stored, ∃ transcript, Yields (turn.after.launch store true)
            (⟨.load, .ok stored⟩ :: transcript)
            (.ok (), turn.before.start (Pending.restore stored))) ∧
    Lifetime (Coordinator.new label options) (turns.filter (!·.isRefused)) current ∧
    ∀ twins other, Lifetime (Coordinator.new label options) twins other →
      twins.map Turn.script = (turns.filter (!·.isRefused)).map Turn.script →
        twins = turns.filter (!·.isRefused) ∧ other = current := by
  refine ⟨fun turn hmem hrefused ↦ ?_, h.erase_refused, fun twins other hlife hscript ↦
    h.erase_refused.unique hlife hscript⟩
  have hvalid := h.valid turn hmem
  obtain ⟨hsame, hunasked⟩ := hvalid.traceless hrefused
  rw [hsame]
  refine ⟨rfl, fun exchange hexchange ↦ ?_, fun hinit hquorum report htask ↦ ?_,
    fun restored cause hcall hresult stored ↦ ?_⟩
  · exact Bool.eq_false_iff.2 (List.filter_eq_nil_iff.1 hunasked exchange hexchange)
  · exact Coordinator.exists_receive_of_first hinit hquorum htask
  · obtain ⟨launched, hlaunch, hmap⟩ := hvalid.launched hcall
    rw [hresult] at hmap
    cases launched with
    | ok value => cases hmap
    | error failure =>
      cases hmap
      exact ⟨_, Coordinator.yields_launch (Coordinator.isInitialized_of_state hlaunch) stored⟩

/-- The same answers except that the store cannot be read. -/
def unreadable : (call : Call) → call.Answer
  | .load => .error (.io "state" .isADirectory)
  | call => Call.granted ⟨"t1", "orders", "/orders", ""⟩ [] (.ofNumber 0) call

/-- A life with a report before the launch, a launch that fails and is repeated, a report of a
writer out of range and one of another number of writers, which is accepted. -/
def hastyLife : List Turn :=
  let granted := Call.granted ⟨"t1", "orders", "/orders", ""⟩ [] (.ofNumber 0)
  let early := Turn.of granted (Coordinator.new "orders" (.ofLocation "/orders"))
    (.deliver (.record ⟨5, 0, 2, "orders", "", .ofList ["a"]⟩))
  let failed := Turn.of unreadable early.after (.launch true)
  let launched := Turn.of granted failed.after (.launch true)
  let stray := Turn.of granted launched.after
    (.deliver (.record ⟨5, 7, 2, "orders", "", .ofList ["a"]⟩))
  let first := Turn.of granted stray.after
    (.deliver (.record ⟨5, 0, 1, "orders", "", .ofList ["a"]⟩))
  [early, failed, launched, stray, first]

theorem refused_calls_leave_no_trace_hasty :
    ∃ current, Lifetime (Coordinator.new "orders" (.ofLocation "/orders")) hastyLife current ∧
      hastyLife.map Turn.isRefused = [true, true, false, true, false] ∧
      Lifetime (Coordinator.new "orders" (.ofLocation "/orders"))
        (hastyLife.filter (!·.isRefused)) current := by
  have hlife : Lifetime (Coordinator.new "orders" (.ofLocation "/orders")) hastyLife _ :=
    ((((Lifetime.nil.snoc (Turn.valid_of _ _ _)).snoc (Turn.valid_of _ _ _)).snoc
      (Turn.valid_of _ _ _)).snoc (Turn.valid_of _ _ _)).snoc (Turn.valid_of _ _ _)
  exact ⟨_, hlife, by decide +kernel, (refused_calls_leave_no_trace hlife).2.1⟩

end CommitCoordinator
