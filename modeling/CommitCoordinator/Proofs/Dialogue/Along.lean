import CommitCoordinator.Proofs.Dialogue.Handle

/-!
# The exchanges of a run

A dialogue that is interpreted over a state makes its calls one after the other, each from the
state in which the call before it left off. The exchanges of a run are a transcript of the
dialogue, and they lead along the states of the run.
-/

namespace CommitCoordinator

/-- Whether exchanges lead from one state to another, each of them by a step. -/
def Along {σ : Type} (step : σ → Exchange → σ → Prop) : σ → List Exchange → σ → Prop
  | s, [], after => after = s
  | s, exchange :: rest, after => ∃ between, step s exchange between ∧ Along step between rest after

section Along

variable {σ : Type} {step : σ → Exchange → σ → Prop} {s after : σ}

@[simp] theorem along_nil : Along step s [] after ↔ after = s :=
  Iff.rfl

@[simp] theorem along_cons {exchange : Exchange} {rest : List Exchange} :
    Along step s (exchange :: rest) after ↔
      ∃ between, step s exchange between ∧ Along step between rest after :=
  Iff.rfl

theorem along_append {front back : List Exchange} :
    Along step s (front ++ back) after ↔
      ∃ between, Along step s front between ∧ Along step between back after := by
  induction front generalizing s with
  | nil => simp
  | cons exchange rest ih =>
    simp only [List.cons_append, along_cons, ih]
    constructor
    · rintro ⟨next, hstep, between, hrest, hback⟩
      exact ⟨between, ⟨next, hstep, hrest⟩, hback⟩
    · rintro ⟨between, ⟨next, hstep, hrest⟩, hback⟩
      exact ⟨next, hstep, between, hrest, hback⟩

/-- Exchanges that change nothing lead back to where they begin. -/
theorem Along.eq_of_idle {transcript : List Exchange} (h : Along step s transcript after)
    (hidle : ∀ exchange ∈ transcript, ∀ s after, step s exchange after → after = s) :
    after = s := by
  induction transcript generalizing s with
  | nil => exact h
  | cons exchange rest ih =>
    obtain ⟨between, hstep, hrest⟩ := h
    obtain rfl := hidle exchange List.mem_cons_self s between hstep
    exact ih hrest fun other hother ↦ hidle other (List.mem_cons_of_mem _ hother)

end Along

namespace Dialogue

section Record

variable {σ α : Type}

/-- Whether a call gets its answer in a state and leaves another one behind. -/
def Took (answer : (call : Call) → StateM σ call.Answer) (s : σ) (exchange : Exchange)
    (after : σ) : Prop :=
  answer exchange.call s = (exchange.answer, after)

/-- The exchanges of a dialogue that begins in a state. -/
def record (answer : (call : Call) → StateM σ call.Answer) : Dialogue α → σ → List Exchange
  | .done _, _ => []
  | .ask call next, s =>
    let (given, after) := answer call s
    ⟨call, given⟩ :: record answer (next given) after

/-- A run follows the exchanges that are recorded of it. -/
theorem yields_record (answer : (call : Call) → StateM σ call.Answer) (x : Dialogue α) (s : σ) :
    Yields x (record answer x s) (interpret answer x s).1 ∧
      Along (Took answer) s (record answer x s) (interpret answer x s).2 := by
  induction x generalizing s with
  | done value => exact ⟨.done value, rfl⟩
  | ask call next ih =>
    obtain ⟨hyields, halong⟩ := ih (answer call s).1 (answer call s).2
    exact ⟨.ask (answer call s).1 hyields, (answer call s).2, rfl, halong⟩

end Record

end Dialogue

end CommitCoordinator
