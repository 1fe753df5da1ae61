import CommitCoordinator.Coordinator.Operator

/-!
# Dialogues

All that a coordinator does outside of itself is a call with an answer. A dialogue is the tree of
the calls that a program may make, with one branch for every answer, so a statement about every
transcript of a dialogue holds whatever the catalog, the listing and the store answer.

Programs are written for any monad with the operations that they use. A dialogue is one such
monad, and `interpret_bind` carries a program from it to every other lawful one.
-/

namespace CommitCoordinator

open Storage

/-- A call of a coordinator to its surroundings. -/
inductive Call where
  | lookup (table : String)
  | append (request : AppendRequest) (keep : Bool) (mode : CommitMode)
  | insert (manifests : List Manifest)
  | list (directory : String)
  | load
  | store (snapshots : List Snapshot)
  | emit (event : MetricEvent)
  | freshId
  | currentTime
deriving DecidableEq

/-- The answers that a call may get. -/
abbrev Call.Answer : Call → Type
  | .lookup _ => Except CatalogError Table
  | .append _ _ _ => Except CatalogError Bool
  | .insert _ => Except CatalogError Unit
  | .list _ => Except StorageError (List Entry)
  | .load => Except StateError (List Snapshot)
  | .store _ => Except StateError Unit
  | .emit _ => Unit
  | .freshId => Uuid
  | .currentTime => Int64

/-- A call with the answer that it got. -/
structure Exchange where
  call : Call
  answer : call.Answer

/-- The identifier whose digits are all the greatest. -/
def Uuid.last : Uuid :=
  ⟨.replicate 32 (Fin.last 15)⟩

/-- The answers of surroundings in which nothing fails: every table is found, every directory is
empty and every snapshot drawn is the same. -/
def Call.granted (table : Table) (stored : List Snapshot) (snapshot : Uuid) :
    (call : Call) → call.Answer
  | .lookup _ => .ok table
  | .append _ _ _ => .ok true
  | .insert _ => .ok ()
  | .list _ => .ok []
  | .load => .ok stored
  | .store _ => .ok ()
  | .emit _ => ()
  | .freshId => snapshot
  | .currentTime => 0

/-- The same answers except that the catalog knows no table. -/
def Call.unknown (stored : List Snapshot) (snapshot : Uuid) : (call : Call) → call.Answer
  | .lookup name => .error (.tableNotFound name)
  | call => granted ⟨"", "", "", ""⟩ stored snapshot call

/-- A program as the tree of its calls. -/
inductive Dialogue (α : Type) : Type where
  | done (value : α)
  | ask (call : Call) (next : call.Answer → Dialogue α)

namespace Dialogue

variable {α β : Type}

def bind : Dialogue α → (α → Dialogue β) → Dialogue β
  | .done value, f => f value
  | .ask call next, f => .ask call fun answer ↦ (next answer).bind f

instance : Monad Dialogue where
  pure := .done
  bind := bind

instance : MonadMetrics Dialogue := ⟨fun event ↦ .ask (.emit event) .done⟩
instance : MonadFresh Dialogue := ⟨.ask .freshId .done⟩
instance : MonadClock Dialogue := ⟨.ask .currentTime .done⟩

/-- A catalog and a listing that leave the answer open. -/
def services : Services Dialogue where
  catalog.lookup name := .ask (.lookup name) .done
  catalog.append request keep mode := .ask (.append request keep mode) .done
  catalog.insert manifests := .ask (.insert manifests) .done
  listing directory := .ask (.list directory) .done

/-- A store that leaves the answer open. -/
def store : SnapshotStore Dialogue where
  load := .ask .load .done
  store snapshots := .ask (.store snapshots) .done

@[simp] theorem services_lookup (name : String) :
    services.catalog.lookup name = .ask (.lookup name) .done := rfl

@[simp] theorem services_append (request : AppendRequest) (keep : Bool) (mode : CommitMode) :
    services.catalog.append request keep mode = .ask (.append request keep mode) .done := rfl

@[simp] theorem services_insert (manifests : List Manifest) :
    services.catalog.insert manifests = .ask (.insert manifests) .done := rfl

@[simp] theorem services_listing (directory : String) :
    services.listing directory = .ask (.list directory) .done := rfl

@[simp] theorem store_store (snapshots : List Snapshot) :
    store.store snapshots = .ask (.store snapshots) .done := rfl

@[simp] theorem emit_eq (event : MetricEvent) :
    (emit event : Dialogue Unit) = .ask (.emit event) .done := rfl

@[simp] theorem freshId_eq : (freshId : Dialogue Uuid) = .ask .freshId .done := rfl

@[simp] theorem currentTime_eq : (currentTime : Dialogue Int64) = .ask .currentTime .done := rfl

@[simp] theorem done_eq (value : α) : (.done value : Dialogue α) = pure value := rfl

@[simp] theorem ask_bind (call : Call) (next : call.Answer → Dialogue α) (f : α → Dialogue β) :
    .ask call next >>= f = .ask call fun answer ↦ next answer >>= f := rfl

theorem bind_done (x : Dialogue α) : x.bind .done = x := by
  induction x with
  | done value => rfl
  | ask call next ih => exact congrArg (Dialogue.ask call) (funext ih)

theorem bind_bind {γ : Type} (x : Dialogue α) (f : α → Dialogue β) (g : β → Dialogue γ) :
    (x.bind f).bind g = x.bind fun a ↦ (f a).bind g := by
  induction x with
  | done value => rfl
  | ask call next ih => exact congrArg (Dialogue.ask call) (funext ih)

instance : LawfulMonad Dialogue := .mk' Dialogue bind_done (fun _ _ ↦ rfl) bind_bind

/-! ## Transcripts -/

/-- A dialogue yields a result with a transcript: the answers that the transcript holds lead along
the calls that it holds to the result. -/
inductive Yields : Dialogue α → List Exchange → α → Prop where
  | done (value : α) : Yields (.done value) [] value
  | ask {call : Call} {next : call.Answer → Dialogue α} (answer : call.Answer)
      {transcript : List Exchange} {value : α} (rest : Yields (next answer) transcript value) :
      Yields (.ask call next) (⟨call, answer⟩ :: transcript) value

@[simp] theorem yields_pure {value result : α} {transcript : List Exchange} :
    Yields (pure value : Dialogue α) transcript result ↔ transcript = [] ∧ result = value := by
  constructor
  · rintro ⟨⟩
    exact ⟨rfl, rfl⟩
  · rintro ⟨rfl, rfl⟩
    exact .done _

@[simp] theorem yields_ask {call : Call} {next : call.Answer → Dialogue α}
    {transcript : List Exchange} {result : α} :
    Yields (.ask call next) transcript result ↔
      ∃ answer rest, transcript = ⟨call, answer⟩ :: rest ∧ Yields (next answer) rest result := by
  constructor
  · intro h
    cases h with
    | ask answer rest => exact ⟨answer, _, rfl, rest⟩
  · rintro ⟨answer, rest, rfl, h⟩
    exact .ask answer h

theorem Yields.bind {x : Dialogue α} {f : α → Dialogue β} {front back : List Exchange} {value : α}
    {result : β} (hx : Yields x front value) (hf : Yields (f value) back result) :
    Yields (x >>= f) (front ++ back) result := by
  induction hx with
  | done value => exact hf
  | ask answer rest ih => exact .ask answer (ih hf)

/-- A transcript of two dialogues in a row is one of the first followed by one of the second. -/
theorem yields_bind {x : Dialogue α} {f : α → Dialogue β} {transcript : List Exchange}
    {result : β} :
    Yields (x >>= f) transcript result ↔ ∃ front back value,
      transcript = front ++ back ∧ Yields x front value ∧ Yields (f value) back result := by
  constructor
  · intro h
    induction x generalizing transcript with
    | done value => exact ⟨[], transcript, value, rfl, .done value, h⟩
    | ask call next ih =>
      cases h with
      | ask answer rest =>
        obtain ⟨front, back, value, rfl, hx, hf⟩ := ih answer rest
        exact ⟨⟨call, answer⟩ :: front, back, value, rfl, .ask answer hx, hf⟩
  · rintro ⟨front, back, value, rfl, hx, hf⟩
    exact hx.bind hf

theorem yields_map {x : Dialogue α} {f : α → β} {transcript : List Exchange} {result : β} :
    Yields (f <$> x) transcript result ↔ ∃ value, Yields x transcript value ∧ result = f value := by
  rw [map_eq_pure_bind, yields_bind]
  constructor
  · rintro ⟨front, back, value, rfl, hx, hf⟩
    obtain ⟨rfl, rfl⟩ := yields_pure.1 hf
    exact ⟨value, by simpa using hx, rfl⟩
  · rintro ⟨value, hx, rfl⟩
    exact ⟨transcript, [], value, by simp, hx, by simp⟩

/-- The answers decide the result. -/
theorem Yields.unique {x : Dialogue α} {transcript : List Exchange} {value other : α}
    (h : Yields x transcript value) (h' : Yields x transcript other) : value = other := by
  induction h with
  | done value => cases h'; rfl
  | ask answer rest ih => cases h' with | ask _ rest' => exact ih rest'

/-- The transcript and the result of a dialogue whose calls get the given answers. -/
def replay (answer : (call : Call) → call.Answer) : Dialogue α → List Exchange × α
  | .done value => ([], value)
  | .ask call next =>
    let (transcript, value) := replay answer (next (answer call))
    (⟨call, answer call⟩ :: transcript, value)

/-- Whatever the answers, a dialogue comes to a result. -/
theorem yields_replay (answer : (call : Call) → call.Answer) (x : Dialogue α) :
    Yields x (replay answer x).1 (replay answer x).2 := by
  induction x with
  | done value => exact .done value
  | ask call next ih => exact .ask (answer call) (ih (answer call))

/-- A metric event goes unanswered. -/
def emitted (event : MetricEvent) : Exchange :=
  ⟨.emit event, ()⟩

theorem emitAll_cons (event : MetricEvent) (events : List MetricEvent) :
    (Coordinator.emitAll (event :: events) : Dialogue Unit) =
      .ask (.emit event) fun _ ↦ Coordinator.emitAll events := rfl

theorem yields_emitAll {events : List MetricEvent} {transcript : List Exchange} {result : Unit} :
    Yields (Coordinator.emitAll events : Dialogue Unit) transcript result ↔
      transcript = events.map emitted := by
  induction events generalizing transcript with
  | nil => simp [Coordinator.emitAll]
  | cons event rest ih =>
    simp only [emitAll_cons, yields_ask, ih, exists_eq_right]
    exact ⟨fun ⟨_, h⟩ ↦ h, fun h ↦ ⟨(), h⟩⟩

/-! ## Other monads -/

section Interpret

variable {m : Type → Type} [Monad m]

/-- Runs a dialogue with answers of a monad. -/
def interpret (answer : (call : Call) → m call.Answer) : Dialogue α → m α
  | .done value => pure value
  | .ask call next => do interpret answer (next (← answer call))

@[simp] theorem interpret_pure (answer : (call : Call) → m call.Answer) (value : α) :
    interpret answer (pure value) = pure value := rfl

@[simp] theorem interpret_ask (answer : (call : Call) → m call.Answer) (call : Call)
    (next : call.Answer → Dialogue α) :
    interpret answer (.ask call next) = answer call >>= fun x ↦ interpret answer (next x) := rfl

@[simp] theorem interpret_bind [LawfulMonad m] (answer : (call : Call) → m call.Answer)
    (x : Dialogue α) (f : α → Dialogue β) :
    interpret answer (x >>= f) = interpret answer x >>= fun value ↦ interpret answer (f value) := by
  induction x with
  | done value => exact (pure_bind value fun value ↦ interpret answer (f value)).symm
  | ask call next ih =>
    rw [interpret_ask, bind_assoc]
    exact congrArg _ (funext ih)

end Interpret

end Dialogue

end CommitCoordinator
