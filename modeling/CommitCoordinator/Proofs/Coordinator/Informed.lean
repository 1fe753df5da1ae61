import CommitCoordinator.Proofs.Coordinator.Protocol

/-!
# Requests about tables that were found

A coordinator asks a catalog to append only to the table that its last lookup found, and since
nothing is pending twice, its request names each partition once. Like the order of the two phases
this holds at every moment, so also of a coordinator that stops in the middle of a commit.
-/

namespace CommitCoordinator

open Dialogue

/-- Whether a request has parts of its own table only, each for another partition. -/
structure AppendRequest.Coherent (request : AppendRequest) : Prop where
  own : ∀ part ∈ request.partitions, part.tableId = request.table.id
  nodup : (request.partitions.map PartitionAppend.partition).Nodup

namespace Exchange

/-- The table that is known after a call, which is what the last lookup found. -/
def finds (found : Option Table) : Exchange → Option Table
  | ⟨.lookup _, .ok table⟩ => some table
  | ⟨.lookup _, .error _⟩ => none
  | _ => found

/-- Whether a request is coherent and about the table that is known. -/
def Informed (found : Option Table) : Exchange → Prop
  | ⟨.append request _ _, _⟩ => found = some request.table ∧ request.Coherent
  | _ => True

end Exchange

/-- Whether each request is coherent and about the table that the last lookup found. -/
def Informed (found : Option Table) : List Exchange → Prop
  | [] => True
  | exchange :: rest => exchange.Informed found ∧ Informed (exchange.finds found) rest

/-- The table that is known after some calls. -/
def foundAfter (found : Option Table) (transcript : List Exchange) : Option Table :=
  transcript.foldl Exchange.finds found

theorem informed_append {found : Option Table} {front back : List Exchange} :
    Informed found (front ++ back) ↔
      Informed found front ∧ Informed (foundAfter found front) back := by
  induction front generalizing found with
  | nil => exact (true_and _).symm.to_iff
  | cons exchange rest ih =>
    rw [List.cons_append, Informed, Informed, ih, and_assoc]
    rfl

theorem informed_of_forall {transcript : List Exchange}
    (h : ∀ exchange ∈ transcript, ∀ found, exchange.Informed found) (found : Option Table) :
    Informed found transcript := by
  induction transcript generalizing found with
  | nil => trivial
  | cons exchange rest ih =>
    exact ⟨h exchange List.mem_cons_self found,
      ih (fun other hmem ↦ h other (List.mem_cons_of_mem _ hmem)) _⟩

/-- A table that is known was known before or has been found by one of the calls. -/
theorem lookup_of_foundAfter {found : Option Table} {transcript : List Exchange} {table : Table}
    (h : foundAfter found transcript = some table) :
    found = some table ∨ ∃ name, (⟨.lookup name, .ok table⟩ : Exchange) ∈ transcript := by
  induction transcript generalizing found with
  | nil => exact .inl h
  | cons exchange rest ih =>
    rcases ih h with hfound | ⟨name, hmem⟩
    · unfold Exchange.finds at hfound
      split at hfound
      · next name _ =>
        cases hfound
        exact .inr ⟨name, List.mem_cons_self⟩
      · cases hfound
      · exact .inl hfound
    · exact .inr ⟨name, List.mem_cons_of_mem exchange hmem⟩

theorem informed_findings (options : SinkOptions) (findings : List Finding)
    (found : Option Table) :
    Informed found (findings.flatMap (·.exchanges options)) ∧
      foundAfter found (findings.flatMap (·.exchanges options)) = found := by
  induction findings with
  | nil => exact ⟨trivial, rfl⟩
  | cons finding rest ih => exact ⟨⟨trivial, trivial, ih.1⟩, ih.2⟩

theorem coherent_payloadOf {options : SinkOptions} {fileMark : String} {table : Table}
    {findings : List Finding} {time : Int64} (h : (findings.map Finding.partition).Nodup) :
    (payloadOf options fileMark table findings time).request.Coherent where
  own := by
    intro part hpart
    obtain ⟨files, -, rfl⟩ := List.mem_map.1 hpart
    rfl
  nodup := by rwa [partitions_payloadOf]

namespace Attempt

theorem Phases.informed {payload : Payload} {phases : List Exchange} {attempt : Attempt}
    (h : Phases payload phases attempt) (hcoherent : payload.request.Coherent) :
    Informed (some payload.request.table) phases := by
  cases h with
  | appendFailed cause => exact ⟨⟨rfl, hcoherent⟩, trivial⟩
  | rejected => exact ⟨⟨rfl, hcoherent⟩, trivial⟩
  | insertFailed cause => exact ⟨⟨rfl, hcoherent⟩, trivial, trivial⟩
  | committed => exact ⟨⟨rfl, hcoherent⟩, trivial, trivial⟩

theorem Course.informed {options : SinkOptions} {report : Report} {partitions : List String}
    {transcript : List Exchange} {attempt : Attempt}
    (h : Course options report partitions transcript attempt) (hnodup : partitions.Nodup)
    (found : Option Table) : Informed found transcript := by
  cases h with
  | lookupFailed cause => exact ⟨trivial, trivial⟩
  | listingFailed table findings partition rest cause =>
    exact ⟨trivial, informed_append.2 ⟨(informed_findings options findings _).1, trivial, trivial⟩⟩
  | sent table findings time hpartitions hphases =>
    obtain ⟨hfindings, hfound⟩ := informed_findings options findings (some table)
    refine ⟨trivial, informed_append.2 ⟨hfindings, trivial, ?_⟩⟩
    have hknown : foundAfter (Exchange.finds found ⟨.lookup report.table, .ok table⟩)
        (findings.flatMap (·.exchanges options)) = some table := hfound
    rw [hknown]
    exact hphases.informed (coherent_payloadOf (hpartitions ▸ hnodup))

end Attempt

/-! ## Whole runs -/

theorem Coordinator.Processed.informed {before after : Coordinator} {report : Report}
    {transcript : List Exchange} {result : Except CommitError (Option CommitSummary)}
    (h : before.Processed report transcript result after) (found : Option Table) :
    Informed found transcript := by
  cases h with
  | @refused cause _ =>
    cases cause with
    | quorum violation => exact ⟨trivial, trivial⟩
    | _ => trivial
  | awaited _ => trivial
  | idle _ _ => exact ⟨trivial, trivial⟩
  | @attempted received exchanges attempt _ _ hcourse =>
    refine ⟨trivial, informed_append.2 ⟨hcourse.informed received.nodup_pendingList _, ?_⟩⟩
    refine informed_of_forall (fun exchange hmem found ↦ ?_) _
    obtain ⟨event, -, rfl⟩ := List.mem_map.1 hmem
    trivial

theorem Step.Valid.informed {step : Step} (h : step.Valid) (found : Option Table) :
    Informed found step.transcript := by
  cases hevent : step.event with
  | record report => exact (h.processed hevent).informed found
  | watermark timestamp =>
    rw [(h.observed hevent).1]
    trivial
  | checkpoint checkpoint =>
    obtain ⟨result, hstored, -, -⟩ := h.stored hevent
    generalize step.transcript = transcript at hstored
    cases hstored with
    | uninitialized _ => trivial
    | failed cause _ => exact ⟨trivial, trivial⟩
    | stored _ => exact ⟨trivial, trivial, trivial⟩

theorem Coordinator.Launched.informed {before after : Coordinator} {restored : Bool}
    {transcript : List Exchange} {result : Except CommitError Unit}
    (h : before.Launched restored transcript result after) (found : Option Table) :
    Informed found transcript := by
  cases h with
  | twice _ => trivial
  | failed cause _ => exact ⟨trivial, trivial⟩
  | started stored _ =>
    cases restored with
    | true => exact ⟨trivial, trivial, trivial⟩
    | false => exact ⟨trivial, trivial⟩

/-- Every request of a run is coherent and about the table that was found for it. -/
theorem Run.informed {start current : Coordinator} {steps : List Step}
    (h : Run start steps current) (found : Option Table) :
    Informed found (steps.flatMap Step.transcript) := by
  induction h generalizing found with
  | nil => trivial
  | snoc _ hstep ih =>
    rw [List.flatMap_append, List.flatMap_singleton]
    exact informed_append.2 ⟨ih found, hstep.informed _⟩

theorem Conducted.informed {transcript : List Exchange} (h : Conducted transcript) :
    Informed none transcript := by
  obtain ⟨rest, before, start, current, restored, loading, result, steps, hlaunch, hrun, hall⟩ := h
  have hboth : Informed none (loading ++ steps.flatMap Step.transcript) := informed_append.2
    ⟨(Coordinator.launched_of_yields hlaunch).informed none, hrun.informed _⟩
  exact (informed_append.1 (hall ▸ hboth)).1

end CommitCoordinator
