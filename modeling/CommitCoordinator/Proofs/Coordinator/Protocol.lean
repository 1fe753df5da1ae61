import CommitCoordinator.Proofs.Catalog.Chain
import CommitCoordinator.Proofs.Coordinator.Run
import Mathlib.Data.List.Forall2

/-!
# The protocol of the two phases

A coordinator asks for exactly the snapshots that it has drawn since the lookup, and it stores
manifests only right after a request that was accepted, one for each part of that request. Both
rules hold at every moment, so they also hold of a coordinator that stops in the middle of a
commit. Where it stands between two calls is all that the rules need to remember.
-/

namespace CommitCoordinator

open Dialogue

namespace Exchange

/-- Whether a call goes to the catalog. -/
def isCatalog (exchange : Exchange) : Bool :=
  match exchange.call with
  | .lookup _ => true
  | .append _ _ _ => true
  | .insert _ => true
  | _ => false

/-- The snapshot that was drawn. -/
def drawn : Exchange → List Uuid
  | ⟨.freshId, id⟩ => [id]
  | _ => []

/-- The parts of a request to append, accepted or not. -/
def asked : Exchange → List PartitionAppend
  | ⟨.append request _ _, _⟩ => request.partitions
  | _ => []

/-- The snapshots that a request or manifests name. -/
def named : Exchange → List Uuid
  | ⟨.append request _ _, _⟩ => request.snapshots
  | ⟨.insert manifests, _⟩ => manifests.map Manifest.id
  | _ => []

/-- The parts of a request to append that was accepted. -/
def accepted : Exchange → List PartitionAppend
  | ⟨.append request _ _, .ok true⟩ => request.partitions
  | _ => []

/-- The manifests that were stored. -/
def inserted : Exchange → List Manifest
  | ⟨.insert manifests, .ok ()⟩ => manifests
  | _ => []

/-- Manifests that were stored, if only an empty list. -/
def isInserted : Exchange → Bool
  | ⟨.insert _, .ok ()⟩ => true
  | _ => false

theorem accepted_sublist_asked (exchange : Exchange) :
    exchange.accepted.Sublist exchange.asked := by
  unfold accepted
  split
  · exact .refl _
  · exact List.nil_sublist _

end Exchange

/-- Whether manifests describe the parts of a request one by one. -/
def Aligned (request : AppendRequest) (manifests : List Manifest) : Prop :=
  List.Forall₂ (fun part manifest ↦ part.tableId = manifest.tableId ∧
    part.partition = manifest.partition ∧ part.snapshots = [manifest.id])
    request.partitions manifests

theorem Aligned.part_of_manifest {request : AppendRequest} {manifests : List Manifest}
    (h : Aligned request manifests) {manifest : Manifest} (hmem : manifest ∈ manifests) :
    ∃ part ∈ request.partitions, part.tableId = manifest.tableId ∧
      part.partition = manifest.partition ∧ part.snapshots = [manifest.id] := by
  unfold Aligned at h
  generalize request.partitions = parts at h
  induction h with
  | nil => cases hmem
  | cons hhead _ ih =>
    rcases List.mem_cons.1 hmem with rfl | hmem
    · exact ⟨_, List.mem_cons_self, hhead⟩
    · obtain ⟨part, hpart, hsame⟩ := ih hmem
      exact ⟨part, List.mem_cons_of_mem _ hpart, hsame⟩

theorem Aligned.manifest_of_part {request : AppendRequest} {manifests : List Manifest}
    (h : Aligned request manifests) {part : PartitionAppend} (hmem : part ∈ request.partitions) :
    ∃ manifest ∈ manifests, part.snapshots = [manifest.id] := by
  unfold Aligned at h
  generalize request.partitions = parts at h hmem
  induction h with
  | nil => cases hmem
  | cons hhead _ ih =>
    rcases List.mem_cons.1 hmem with rfl | hmem
    · exact ⟨_, List.mem_cons_self, hhead.2.2⟩
    · obtain ⟨manifest, hmanifest, hsame⟩ := ih hmem
      exact ⟨manifest, List.mem_cons_of_mem _ hmanifest, hsame⟩

theorem aligned_assemble (table : Table) (parts : List PartitionFiles) (columns : String)
    (time : Int64) :
    Aligned (Payload.assemble table parts columns time).request
      (Payload.assemble table parts columns time).manifests := by
  change List.Forall₂ _ (parts.map (·.toAppend table)) (parts.map (·.toManifest table columns time))
  rw [List.forall₂_map_left_iff, List.forall₂_map_right_iff, List.forall₂_same]
  exact fun part _ ↦ ⟨rfl, rfl, rfl⟩

theorem snapshots_payloadOf (options : SinkOptions) (fileMark : String) (table : Table)
    (findings : List Finding) (time : Int64) :
    (payloadOf options fileMark table findings time).request.snapshots =
      findings.map Finding.snapshot := by
  simp only [payloadOf, Payload.assemble, AppendRequest.snapshots, PartitionFiles.toAppend,
    Finding.toPart, List.flatMap_map, List.map_map]
  exact List.flatMap_pure_eq_map Finding.snapshot findings

theorem partitions_payloadOf (options : SinkOptions) (fileMark : String) (table : Table)
    (findings : List Finding) (time : Int64) :
    (payloadOf options fileMark table findings time).request.partitions.map
      PartitionAppend.partition = findings.map Finding.partition := by
  simp [payloadOf, Payload.assemble, PartitionFiles.toAppend, Finding.toPart]

/-- Where a coordinator stands between two of its calls. -/
structure Standing where
  /-- The snapshots drawn since the last lookup or request. -/
  drawn : List Uuid
  /-- The request that was accepted just now. -/
  granted : Option AppendRequest

namespace Standing

/-- Where the coordinator stands after one more call. -/
def next (standing : Standing) : Exchange → Standing
  | ⟨.lookup _, _⟩ => ⟨[], none⟩
  | ⟨.freshId, id⟩ => ⟨standing.drawn ++ [id], none⟩
  | ⟨.append request _ _, .ok true⟩ => ⟨[], some request⟩
  | ⟨.append _ _ _, _⟩ => ⟨[], none⟩
  | _ => ⟨standing.drawn, none⟩

def after (standing : Standing) (transcript : List Exchange) : Standing :=
  transcript.foldl next standing

/-- Whether the coordinator may make a call. -/
def Allows (standing : Standing) : Exchange → Prop
  | ⟨.append request keep mode, _⟩ =>
    standing.granted = none ∧ keep = true ∧ mode = .append ∧ request.snapshots = standing.drawn
  | ⟨.insert manifests, _⟩ => ∃ request, standing.granted = some request ∧ Aligned request manifests
  | _ => standing.granted = none

/-- Whether all calls were allowed when they were made. -/
def Orderly (standing : Standing) : List Exchange → Prop
  | [] => True
  | exchange :: rest => standing.Allows exchange ∧ (standing.next exchange).Orderly rest

theorem orderly_append {standing : Standing} {front back : List Exchange} :
    standing.Orderly (front ++ back) ↔
      standing.Orderly front ∧ (standing.after front).Orderly back := by
  induction front generalizing standing with
  | nil => exact (true_and _).symm.to_iff
  | cons exchange rest ih =>
    rw [List.cons_append, Orderly, Orderly, ih, and_assoc]
    rfl

theorem after_append (standing : Standing) (front back : List Exchange) :
    standing.after (front ++ back) = (standing.after front).after back :=
  List.foldl_append

/-- The snapshots that a coordinator asks for are among those drawn, in the same order. -/
theorem Orderly.asked_sublist {standing : Standing} {transcript : List Exchange}
    (h : standing.Orderly transcript) :
    ((transcript.flatMap Exchange.asked).flatMap PartitionAppend.snapshots).Sublist
      (standing.drawn ++ transcript.flatMap Exchange.drawn) := by
  induction transcript generalizing standing with
  | nil => exact List.nil_sublist _
  | cons exchange rest ih =>
    obtain ⟨hallows, hrest⟩ := h
    have hrest := ih hrest
    obtain ⟨call, answer⟩ := exchange
    cases call with
    | lookup table => exact hrest.trans (List.sublist_append_right _ _)
    | freshId =>
      rw [show (standing.next ⟨.freshId, answer⟩).drawn = standing.drawn ++ [answer] from rfl,
        List.append_assoc] at hrest
      exact hrest
    | append request keep mode =>
      have hdrawn : (standing.next ⟨.append request keep mode, answer⟩).drawn = [] := by
        rcases answer with _ | _ | _ <;> rfl
      rw [hdrawn, List.nil_append] at hrest
      rw [List.flatMap_cons, List.flatMap_append]
      change (request.snapshots ++ _).Sublist _
      rw [hallows.2.2.2]
      exact hrest.append_left standing.drawn
    | _ => exact hrest

/-- Whether a snapshot was drawn since the last lookup or is in the request accepted just now. -/
def Knows (standing : Standing) (id : Uuid) : Prop :=
  id ∈ standing.drawn ∨ ∃ request, standing.granted = some request ∧ id ∈ request.snapshots

theorem Allows.knows_named {standing : Standing} {exchange : Exchange}
    (h : standing.Allows exchange) {id : Uuid} (hid : id ∈ exchange.named) : standing.Knows id := by
  obtain ⟨call, answer⟩ := exchange
  cases call with
  | append request keep mode => exact .inl (h.2.2.2 ▸ hid)
  | insert manifests =>
    obtain ⟨request, hgranted, haligned⟩ := h
    obtain ⟨manifest, hmanifest, rfl⟩ := List.mem_map.1 hid
    obtain ⟨part, hpart, -, -, hsnapshots⟩ := haligned.part_of_manifest hmanifest
    refine .inr ⟨request, hgranted, List.mem_flatMap.2 ⟨part, hpart, ?_⟩⟩
    rw [hsnapshots]
    exact List.mem_cons_self
  | _ => cases hid

/-- A coordinator learns of a snapshot only by drawing it. -/
theorem Allows.knows_of_next {standing : Standing} {exchange : Exchange}
    (h : standing.Allows exchange) {id : Uuid} (hid : (standing.next exchange).Knows id) :
    standing.Knows id ∨ id ∈ exchange.drawn := by
  obtain ⟨call, answer⟩ := exchange
  obtain hdrawn | ⟨request, hgranted, hsnapshots⟩ := hid
  · cases call with
    | freshId => exact (List.mem_append.1 hdrawn).imp_left .inl
    | lookup table => cases hdrawn
    | append request keep mode => rcases answer with _ | _ | _ <;> cases hdrawn
    | _ => exact .inl (.inl hdrawn)
  · cases call with
    | append asked keep mode =>
      rcases answer with _ | _ | _ <;> cases hgranted
      exact .inl (.inl (h.2.2.2 ▸ hsnapshots))
    | _ => cases hgranted

/-- The snapshots that a coordinator names are among those drawn. -/
theorem Orderly.named_subset {standing : Standing} {transcript : List Exchange}
    (h : standing.Orderly transcript) {id : Uuid} (hid : id ∈ transcript.flatMap Exchange.named) :
    standing.Knows id ∨ id ∈ transcript.flatMap Exchange.drawn := by
  induction transcript generalizing standing with
  | nil => cases hid
  | cons exchange rest ih =>
    obtain ⟨hallows, hrest⟩ := h
    rw [List.flatMap_cons, List.mem_append] at hid ⊢
    rcases hid with hid | hid
    · exact .inl (hallows.knows_named hid)
    · rcases ih hrest hid with hknows | hdrawn
      · exact (hallows.knows_of_next hknows).imp_right .inl
      · exact .inr (.inr hdrawn)

/-- A request that was accepted just now is the last call made. -/
theorem granted_after_eq_some {transcript : List Exchange} {request : AppendRequest}
    (h : ((⟨[], none⟩ : Standing).after transcript).granted = some request) :
    ∃ front keep mode, transcript = front ++ [⟨.append request keep mode, .ok true⟩] := by
  rcases List.eq_nil_or_concat' transcript with rfl | ⟨front, exchange, rfl⟩
  · cases h
  · rw [after_append] at h
    change (((⟨[], none⟩ : Standing).after front).next exchange).granted = some request at h
    unfold next at h
    split at h
    · cases h
    · cases h
    · rename_i asked keep mode
      cases h
      exact ⟨front, keep, mode, rfl⟩
    · cases h
    · cases h

end Standing

/-- Whether calls are allowed from wherever no request waits for its manifests, and leave no
request waiting. -/
def Balanced (transcript : List Exchange) : Prop :=
  ∀ standing : Standing, standing.granted = none →
    standing.Orderly transcript ∧ (standing.after transcript).granted = none

namespace Balanced

theorem nil : Balanced [] :=
  fun _ hnone ↦ ⟨trivial, hnone⟩

theorem append {front back : List Exchange} (hfront : Balanced front) (hback : Balanced back) :
    Balanced (front ++ back) := by
  intro standing hnone
  obtain ⟨horderly, hmiddle⟩ := hfront standing hnone
  obtain ⟨hrest, hend⟩ := hback _ hmiddle
  rw [Standing.orderly_append, Standing.after_append]
  exact ⟨⟨horderly, hrest⟩, hend⟩

theorem flatMap {α : Type} {list : List α} {f : α → List Exchange}
    (h : ∀ x ∈ list, Balanced (f x)) : Balanced (list.flatMap f) := by
  induction list with
  | nil => exact nil
  | cons x rest ih =>
    rw [List.flatMap_cons]
    exact (h x List.mem_cons_self).append (ih fun y hy ↦ h y (List.mem_cons_of_mem x hy))

theorem singleton_emitted (event : MetricEvent) : Balanced [emitted event] :=
  fun _ hnone ↦ ⟨⟨hnone, trivial⟩, rfl⟩

theorem map_emitted (events : List MetricEvent) : Balanced (events.map emitted) := by
  rw [← List.flatMap_pure_eq_map]
  exact flatMap fun event _ ↦ singleton_emitted event

end Balanced

/-- The findings of an attempt leave their snapshots behind those drawn before. -/
theorem orderly_findings (options : SinkOptions) (findings : List Finding) (standing : Standing)
    (hnone : standing.granted = none) :
    standing.Orderly (findings.flatMap (·.exchanges options)) ∧
      standing.after (findings.flatMap (·.exchanges options)) =
        ⟨standing.drawn ++ findings.map Finding.snapshot, none⟩ := by
  induction findings generalizing standing with
  | nil =>
    obtain ⟨drawn, granted⟩ := standing
    cases hnone
    exact ⟨trivial, by simp [Standing.after]⟩
  | cons finding rest ih =>
    obtain ⟨horderly, hafter⟩ :=
      ih ⟨standing.drawn ++ [finding.snapshot], none⟩ rfl
    rw [List.append_assoc] at hafter
    exact ⟨⟨hnone, rfl, horderly⟩, hafter⟩

theorem balanced_phases {payload : Payload} {phases : List Exchange} {attempt : Attempt}
    (h : Attempt.Phases payload phases attempt)
    (haligned : Aligned payload.request payload.manifests) (standing : Standing)
    (hnone : standing.granted = none) (hdrawn : payload.request.snapshots = standing.drawn) :
    standing.Orderly phases ∧ (standing.after phases).granted = none := by
  have happend (accepted : Except CatalogError Bool) :
      standing.Allows ⟨.append payload.request true .append, accepted⟩ :=
    ⟨hnone, rfl, rfl, hdrawn⟩
  cases h with
  | appendFailed cause => exact ⟨⟨happend _, trivial⟩, rfl⟩
  | rejected => exact ⟨⟨happend _, trivial⟩, rfl⟩
  | insertFailed cause =>
    exact ⟨⟨happend _, ⟨payload.request, rfl, haligned⟩, trivial⟩, rfl⟩
  | committed =>
    exact ⟨⟨happend _, ⟨payload.request, rfl, haligned⟩, trivial⟩, rfl⟩

theorem Attempt.Course.balanced {options : SinkOptions} {report : Report}
    {partitions : List String} {transcript : List Exchange} {attempt : Attempt}
    (h : Attempt.Course options report partitions transcript attempt) : Balanced transcript := by
  intro standing hnone
  cases h with
  | lookupFailed cause => exact ⟨⟨hnone, trivial⟩, rfl⟩
  | listingFailed table findings partition rest cause =>
    obtain ⟨hfindings, hafter⟩ := orderly_findings options findings ⟨[], none⟩ rfl
    have horderly : (⟨[], none⟩ : Standing).Orderly (findings.flatMap (·.exchanges options) ++
        [⟨.list (Storage.joinPath options.location partition), .error cause⟩]) := by
      rw [Standing.orderly_append, hafter]
      exact ⟨hfindings, rfl, trivial⟩
    refine ⟨⟨hnone, horderly⟩, ?_⟩
    change (Standing.after ⟨[], none⟩ _).granted = none
    rw [Standing.after_append]
    rfl
  | sent table findings time hpartitions hphases =>
    rename_i phases
    obtain ⟨hfindings, hafter⟩ := orderly_findings options findings ⟨[], none⟩ rfl
    obtain ⟨hsent, hend⟩ := balanced_phases hphases (aligned_assemble _ _ _ _)
      ⟨findings.map Finding.snapshot, none⟩ rfl (snapshots_payloadOf _ _ _ _ _)
    have horderly : (⟨[], none⟩ : Standing).Orderly (findings.flatMap (·.exchanges options) ++
        ⟨.currentTime, time⟩ :: phases) := by
      rw [Standing.orderly_append, hafter]
      exact ⟨hfindings, rfl, hsent⟩
    refine ⟨⟨hnone, horderly⟩, ?_⟩
    change (Standing.after ⟨[], none⟩ _).granted = none
    rw [Standing.after_append, hafter]
    exact hend

/-- The request of an attempt that appended its snapshots names all its partitions. -/
theorem Attempt.Course.exists_accepted {options : SinkOptions} {report : Report}
    {partitions : List String} {transcript : List Exchange} {attempt : Attempt}
    (h : Attempt.Course options report partitions transcript attempt)
    (happended : attempt.isAppended = true) {partition : String} (hmem : partition ∈ partitions) :
    ∃ exchange ∈ transcript, ∃ part ∈ exchange.accepted, part.partition = partition := by
  cases h with
  | lookupFailed cause => cases happended
  | listingFailed table findings failed rest cause => cases happended
  | @sent table findings time phases _ hpartitions hphases =>
    have hrequest : (⟨.append (payloadOf options report.fileMark table findings time).request true
        .append, .ok true⟩ : Exchange) ∈ phases := by
      cases hphases with
      | appendFailed cause => cases happended
      | rejected => cases happended
      | insertFailed cause => exact List.mem_cons_self
      | committed => exact List.mem_cons_self
    rw [hpartitions, ← partitions_payloadOf options report.fileMark table findings time] at hmem
    obtain ⟨part, hpart, hname⟩ := List.mem_map.1 hmem
    exact ⟨_, List.mem_cons_of_mem _ (List.mem_append_right _ (List.mem_cons_of_mem _ hrequest)),
      part, hpart, hname⟩

theorem Coordinator.Processed.balanced {before after : Coordinator} {report : Report}
    {transcript : List Exchange} {result : Except CommitError (Option CommitSummary)}
    (h : before.Processed report transcript result after) : Balanced transcript := by
  cases h with
  | @refused cause _ =>
    cases cause with
    | quorum violation => exact .singleton_emitted _
    | _ => exact .nil
  | awaited _ => exact .nil
  | idle _ _ => exact .singleton_emitted _
  | attempted _ _ hcourse =>
    exact (Balanced.singleton_emitted _).append (hcourse.balanced.append (.map_emitted _))

theorem Step.Valid.balanced {step : Step} (h : step.Valid) : Balanced step.transcript := by
  cases hevent : step.event with
  | record report => exact (h.processed hevent).balanced
  | watermark timestamp =>
    rw [(h.observed hevent).1]
    exact .nil
  | checkpoint checkpoint =>
    obtain ⟨result, hstored, -, -⟩ := h.stored hevent
    generalize step.transcript = transcript at hstored
    intro standing hnone
    cases hstored with
    | uninitialized _ => exact ⟨trivial, hnone⟩
    | failed cause _ => exact ⟨⟨hnone, trivial⟩, rfl⟩
    | stored _ => exact ⟨⟨hnone, rfl, trivial⟩, rfl⟩

theorem Coordinator.Launched.balanced {before after : Coordinator} {restored : Bool}
    {transcript : List Exchange} {result : Except CommitError Unit}
    (h : before.Launched restored transcript result after) : Balanced transcript := by
  intro standing hnone
  cases h with
  | twice _ => exact ⟨trivial, hnone⟩
  | failed cause _ => exact ⟨⟨hnone, trivial⟩, rfl⟩
  | started stored _ =>
    cases restored with
    | true => exact ⟨⟨hnone, rfl, trivial⟩, rfl⟩
    | false => exact ⟨⟨hnone, trivial⟩, rfl⟩

/-- Every run keeps to the protocol. -/
theorem Run.balanced {start current : Coordinator} {steps : List Step}
    (h : Run start steps current) : Balanced (steps.flatMap Step.transcript) :=
  .flatMap fun step hstep ↦ (h.valid step hstep).balanced

/-- Whether calls are all those of a coordinator that was launched and took in events. -/
def Concluded (transcript : List Exchange) : Prop :=
  ∃ (before start current : Coordinator) (restored : Bool) (loading : List Exchange)
    (result : Except CommitError Unit) (steps : List Step),
    Yields (before.launch store restored) loading (result, start) ∧ Run start steps current ∧
      transcript = loading ++ steps.flatMap Step.transcript

/-- Whether calls are those of a coordinator that may have stopped at any moment. -/
def Conducted (transcript : List Exchange) : Prop :=
  ∃ rest, Concluded (transcript ++ rest)

theorem Concluded.balanced {transcript : List Exchange} (h : Concluded transcript) :
    Balanced transcript := by
  obtain ⟨before, start, current, restored, loading, result, steps, hlaunch, hrun, rfl⟩ := h
  exact (Coordinator.launched_of_yields hlaunch).balanced.append hrun.balanced

theorem Conducted.orderly {transcript : List Exchange} (h : Conducted transcript) :
    (⟨[], none⟩ : Standing).Orderly transcript := by
  obtain ⟨rest, hrest⟩ := h
  exact (Standing.orderly_append.1 (hrest.balanced ⟨[], none⟩ rfl).1).1

end CommitCoordinator
