import CommitCoordinator.Proofs.Dialogue.Handle
import Mathlib.Data.List.Forall2

/-!
# Similar dialogues

Two coordinators never draw the same identifiers and never read the same clock. Their calls are
alike if they agree in everything else: identifiers are related to one another, the times of
manifests are free, and so are the watermarks of snapshots until both coordinators have seen one.
Similar dialogues make calls that are alike for as long as the answers are alike.
-/

namespace CommitCoordinator

open Storage

/-! ## Calls and answers that are alike -/

section Alike

variable (R : Uuid → Uuid → Prop)

structure PartitionAppend.Alike (part other : PartitionAppend) : Prop where
  tableId : part.tableId = other.tableId
  partition : part.partition = other.partition
  mode : part.mode = other.mode
  snapshots : List.Forall₂ R part.snapshots other.snapshots

structure AppendRequest.Alike (request other : AppendRequest) : Prop where
  table : request.table = other.table
  partitions : List.Forall₂ (PartitionAppend.Alike R) request.partitions other.partitions

structure Manifest.Alike (manifest other : Manifest) : Prop where
  id : R manifest.id other.id
  tableId : manifest.tableId = other.tableId
  partition : manifest.partition = other.partition
  mode : manifest.mode = other.mode
  files : manifest.files = other.files

/-- Snapshots of the same pending partitions; the flag tells whether the watermarks agree too. -/
structure Snapshot.Alike (ticked : Bool) (snapshot other : Snapshot) : Prop where
  schemaVersion : snapshot.schemaVersion = other.schemaVersion
  checkpoint : snapshot.checkpoint = other.checkpoint
  pending : snapshot.pending = other.pending
  watermark : ticked = true → snapshot.watermark = other.watermark

/-- Calls that differ in identifiers and times only. -/
inductive Call.Alike (ticked : Bool) : Call → Call → Prop where
  | lookup (table : String) : Alike ticked (.lookup table) (.lookup table)
  | append {request other : AppendRequest} (h : request.Alike R other) (keep : Bool)
      (mode : CommitMode) : Alike ticked (.append request keep mode) (.append other keep mode)
  | insert {manifests others : List Manifest}
      (h : List.Forall₂ (Manifest.Alike R) manifests others) :
      Alike ticked (.insert manifests) (.insert others)
  | list (directory : String) : Alike ticked (.list directory) (.list directory)
  | load : Alike ticked .load .load
  | store {snapshots others : List Snapshot}
      (h : List.Forall₂ (Snapshot.Alike ticked) snapshots others) :
      Alike ticked (.store snapshots) (.store others)
  | emit (event : MetricEvent) : Alike ticked (.emit event) (.emit event)
  | freshId : Alike ticked .freshId .freshId
  | currentTime : Alike ticked .currentTime .currentTime

/-- Answers to calls that are alike: drawn identifiers are related, the clock may show anything,
and all else is the same. -/
def Call.AnswersAlike : (call other : Call) → call.Answer → other.Answer → Prop
  | .lookup _, .lookup _, answer, answer' => answer = answer'
  | .append _ _ _, .append _ _ _, answer, answer' => answer = answer'
  | .insert _, .insert _, answer, answer' => answer = answer'
  | .list _, .list _, answer, answer' => answer = answer'
  | .load, .load, answer, answer' => answer = answer'
  | .store _, .store _, answer, answer' => answer = answer'
  | .emit _, .emit _, _, _ => True
  | .freshId, .freshId, id, other => R id other
  | .currentTime, .currentTime, _, _ => True
  | _, _, _, _ => False

structure Exchange.Alike (ticked : Bool) (exchange other : Exchange) : Prop where
  call : exchange.call.Alike R ticked other.call
  answer : exchange.call.AnswersAlike R other.call exchange.answer other.answer

/-- Whether the surroundings of two transcripts answer alike for as long as they are asked alike. -/
def Concordant : List Exchange → List Exchange → Prop
  | exchange :: rest, other :: others =>
    exchange.call.Alike R false other.call →
      exchange.call.AnswersAlike R other.call exchange.answer other.answer ∧ Concordant rest others
  | _, _ => True

end Alike

theorem Call.Alike.weaken {R : Uuid → Uuid → Prop} {ticked : Bool} {call other : Call}
    (h : call.Alike R ticked other) : call.Alike R false other := by
  cases h with
  | lookup table => exact .lookup table
  | append h keep mode => exact .append h keep mode
  | insert h => exact .insert h
  | list directory => exact .list directory
  | load => exact .load
  | store h =>
    refine .store (h.imp fun snapshot other hsnapshot ↦ ?_)
    exact ⟨hsnapshot.schemaVersion, hsnapshot.checkpoint, hsnapshot.pending, nofun⟩
  | emit event => exact .emit event
  | freshId => exact .freshId
  | currentTime => exact .currentTime

/-- Surroundings in which nothing fails answer alike, whatever identifiers they draw. -/
theorem Call.Alike.granted {R : Uuid → Uuid → Prop} {call other : Call}
    (h : call.Alike R false other) {snapshot snapshot' : Uuid} (hsnapshot : R snapshot snapshot')
    (table : Table) (stored : List Snapshot) :
    call.AnswersAlike R other (call.granted table stored snapshot)
      (other.granted table stored snapshot') := by
  cases h with
  | lookup => exact rfl
  | append => exact rfl
  | insert => exact rfl
  | list => exact rfl
  | load => exact rfl
  | store => exact rfl
  | emit => trivial
  | freshId => exact hsnapshot
  | currentTime => trivial

namespace Dialogue

variable {R : Uuid → Uuid → Prop} {ticked : Bool} {α β γ δ : Type} {P : α → β → Prop}

/-- Dialogues that ask alike as long as they are answered alike, and then come to related
results. -/
inductive Similar (R : Uuid → Uuid → Prop) (ticked : Bool) (P : α → β → Prop) :
    Dialogue α → Dialogue β → Prop where
  | done {value : α} {other : β} (h : P value other) :
      Similar R ticked P (.done value) (.done other)
  | ask {call call' : Call} {next : call.Answer → Dialogue α} {next' : call'.Answer → Dialogue β}
      (hcall : call.Alike R ticked call')
      (hnext : ∀ answer answer', call.AnswersAlike R call' answer answer' →
        Similar R ticked P (next answer) (next' answer')) :
      Similar R ticked P (.ask call next) (.ask call' next')

namespace Similar

theorem pure {value : α} {other : β} (h : P value other) :
    Similar R ticked P (pure value) (Pure.pure other) :=
  .done h

theorem bind {Q : γ → δ → Prop} {x : Dialogue α} {y : Dialogue β} {f : α → Dialogue γ}
    {g : β → Dialogue δ} (h : Similar R ticked P x y)
    (hnext : ∀ value other, P value other → Similar R ticked Q (f value) (g other)) :
    Similar R ticked Q (x >>= f) (y >>= g) := by
  induction h with
  | done h => exact hnext _ _ h
  | ask hcall _ ih => exact .ask hcall ih

/-- Both dialogues emit the same events. -/
theorem emitAll (events : List MetricEvent) :
    Similar R ticked (fun _ _ ↦ True) (Coordinator.emitAll events)
      (Coordinator.emitAll events) := by
  induction events with
  | nil => exact .pure trivial
  | cons event rest ih =>
    rw [emitAll_cons]
    exact .ask (.emit event) fun _ _ _ ↦ ih

/-- Transcripts of similar dialogues are alike, and so are the results, if the surroundings are
concordant up to there. -/
theorem alike {x : Dialogue α} {y : Dialogue β} (h : Similar R ticked P x y)
    {transcript transcript' : List Exchange} {value : α} {other : β}
    (hx : Yields x transcript value) (hy : Yields y transcript' other) {rest rest' : List Exchange}
    (hanswers : Concordant R (transcript ++ rest) (transcript' ++ rest')) :
    List.Forall₂ (Exchange.Alike R ticked) transcript transcript' ∧ P value other ∧
      Concordant R rest rest' := by
  induction h generalizing transcript transcript' with
  | done h =>
    cases hx
    cases hy
    exact ⟨.nil, h, hanswers⟩
  | ask hcall _ ih =>
    cases hx with
    | ask answer hx =>
      cases hy with
      | ask answer' hy =>
        obtain ⟨hanswer, hanswers⟩ := hanswers hcall.weaken
        obtain ⟨halike, hvalue, hrest⟩ := ih answer answer' hanswer hx hy hanswers
        exact ⟨.cons ⟨hcall, hanswer⟩ halike, hvalue, hrest⟩

end Similar

/-! ## Surroundings that answer by a rule -/

/-- Surroundings that answer every call by a rule are concordant if the rules answer alike. -/
theorem concordant_of_answers {answer answer' : (call : Call) → call.Answer}
    (halike : ∀ call other : Call, call.Alike R false other →
      call.AnswersAlike R other (answer call) (answer' other))
    {transcript transcript' : List Exchange}
    (h : ∀ exchange ∈ transcript, exchange.answer = answer exchange.call)
    (h' : ∀ exchange ∈ transcript', exchange.answer = answer' exchange.call) :
    Concordant R transcript transcript' := by
  induction transcript generalizing transcript' with
  | nil => trivial
  | cons exchange rest ih =>
    cases transcript' with
    | nil => trivial
    | cons other others =>
      intro hcall
      rw [h exchange List.mem_cons_self, h' other List.mem_cons_self]
      refine ⟨halike _ _ hcall, ih (fun exchange hmem ↦ ?_) fun exchange hmem ↦ ?_⟩
      · exact h exchange (List.mem_cons_of_mem _ hmem)
      · exact h' exchange (List.mem_cons_of_mem _ hmem)

theorem answer_of_mem_replay {answer : (call : Call) → call.Answer} {x : Dialogue α}
    {exchange : Exchange} (h : exchange ∈ (replay answer x).1) :
    exchange.answer = answer exchange.call := by
  induction x with
  | done value => cases h
  | ask call next ih =>
    rcases List.mem_cons.1 h with rfl | h
    · rfl
    · exact ih _ h

end Dialogue

end CommitCoordinator
