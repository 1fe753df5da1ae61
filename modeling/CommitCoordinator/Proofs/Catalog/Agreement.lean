import CommitCoordinator.Catalog.Memory
import CommitCoordinator.Proofs.Catalog.History

/-!
# Chains and manifests agree

Several coordinators share one catalog, and any of them may stop between the two phases of a
commit. A snapshot is without a manifest exactly as long as the manifests of its request have not
been stored, and a manifest describes a snapshot of one chain only, that of its own partition.
-/

namespace CommitCoordinator

open Dialogue

/-! ## Requests that wait for their manifests -/

namespace History

/-- Whether a party stores manifests with its next call. -/
def settled (party : Nat) (rest : History) : Bool :=
  (said party rest).head?.any Exchange.isInserted

/-- The parts of accepted requests whose manifests have not been stored. -/
def unfinished : History → List PartitionAppend
  | [] => []
  | (party, exchange) :: rest =>
    (if settled party rest then [] else exchange.accepted) ++ unfinished rest

/-- The call after a request that was accepted can only store its manifests. -/
theorem Orderly.aligned_of_settled {front rest : History} {party : Nat} {request : AppendRequest}
    {keep : Bool} {mode : CommitMode}
    (h : Orderly (front ++ (party, ⟨.append request keep mode, .ok true⟩) :: rest))
    (hsettled : settled party rest = true) :
    ∃ manifests, Aligned request manifests ∧ ∀ manifest ∈ manifests, manifest ∈ inserted rest := by
  have hparty := h party
  rw [said_append, said_cons_self, Standing.orderly_append] at hparty
  have hnext := hparty.2.2
  unfold settled at hsettled
  cases hsaid : said party rest with
  | nil => rw [hsaid] at hsettled; cases hsettled
  | cons exchange later =>
    rw [hsaid] at hsettled hnext
    change exchange.isInserted = true at hsettled
    unfold Exchange.isInserted at hsettled
    split at hsettled
    · rename_i manifests
      obtain ⟨granted, hgranted, haligned⟩ := hnext.1
      cases hgranted
      refine ⟨manifests, haligned, fun manifest hmanifest ↦ ?_⟩
      have hmem : (party, (⟨.insert manifests, .ok ()⟩ : Exchange)) ∈ rest := by
        rw [← mem_said, hsaid]
        exact List.mem_cons_self
      exact List.mem_flatMap.2 ⟨_, hmem, hmanifest⟩
    · cases hsettled

/-- Manifests are only stored by the party whose request they describe, right after it. -/
theorem Orderly.request_of_inserted {history : History} (h : Orderly history)
    {manifest : Manifest} (hmem : manifest ∈ inserted history) :
    ∃ front party request keep mode rest,
      history = front ++ (party, ⟨.append request keep mode, .ok true⟩) :: rest ∧
        settled party rest = true ∧
          ∃ part ∈ request.partitions, part.tableId = manifest.tableId ∧
            part.partition = manifest.partition ∧ part.snapshots = [manifest.id] := by
  obtain ⟨⟨party, exchange⟩, hexchange, hmanifest⟩ := List.mem_flatMap.1 hmem
  change manifest ∈ exchange.inserted at hmanifest
  unfold Exchange.inserted at hmanifest
  split at hmanifest
  · rename_i manifests
    obtain ⟨earlier, later, rfl⟩ := List.append_of_mem hexchange
    have hparty := h party
    rw [said_append, said_cons_self, Standing.orderly_append] at hparty
    obtain ⟨request, hgranted, haligned⟩ := hparty.2.1
    obtain ⟨saidFront, keep, mode, hsaid⟩ := Standing.granted_after_eq_some hgranted
    obtain ⟨front, middle, rfl, hmiddle⟩ := said_eq_concat hsaid
    refine ⟨front, party, request, keep, mode,
      middle ++ (party, ⟨.insert manifests, .ok ()⟩) :: later, by simp, ?_,
      haligned.part_of_manifest hmanifest⟩
    rw [settled, said_append, hmiddle, said_cons_self]
    rfl
  · cases hmanifest

/-- A snapshot of an accepted request is described as soon as its party has stored manifests. -/
theorem Orderly.described_iff {front rest : History} {party : Nat} {exchange : Exchange}
    (h : Orderly (front ++ (party, exchange) :: rest))
    (hnodup : ((asked (front ++ (party, exchange) :: rest)).flatMap
      PartitionAppend.snapshots).Nodup)
    {part : PartitionAppend} (hpart : part ∈ exchange.accepted) {id : Uuid}
    (hid : id ∈ part.snapshots) :
    (∃ manifest ∈ inserted (front ++ (party, exchange) :: rest), manifest.id = id) ↔
      settled party rest = true := by
  have hasked : id ∈ exchange.asked.flatMap PartitionAppend.snapshots :=
    List.mem_flatMap.2 ⟨part, exchange.accepted_sublist_asked.subset hpart, hid⟩
  constructor
  · rintro ⟨manifest, hmanifest, rfl⟩
    obtain ⟨front', party', request, keep, mode, rest', heq, hsettled, part', hpart', -, -,
      hsnapshots⟩ := h.request_of_inserted hmanifest
    have hasked' : manifest.id ∈ request.partitions.flatMap PartitionAppend.snapshots :=
      List.mem_flatMap.2 ⟨part', hpart', by rw [hsnapshots]; exact List.mem_cons_self⟩
    rw [asked, List.flatMap_assoc] at hnodup
    obtain ⟨-, hentry, rfl⟩ := append_cons_inj_of_nodup hnodup heq hasked hasked'
    rw [(Prod.mk.inj hentry).1]
    exact hsettled
  · intro hsettled
    unfold Exchange.accepted at hpart
    split at hpart
    · obtain ⟨manifests, haligned, hinserted⟩ := h.aligned_of_settled hsettled
      obtain ⟨manifest, hmanifest, hsnapshots⟩ := haligned.manifest_of_part hpart
      rw [hsnapshots, List.mem_singleton] at hid
      have hmem : manifest ∈ inserted rest := hinserted manifest hmanifest
      refine ⟨manifest, ?_, hid.symm⟩
      rw [inserted, List.flatMap_append, List.flatMap_cons]
      exact List.mem_append_right _ (List.mem_append_right _ hmem)
    · cases hpart

/-- Without the snapshots that have a manifest, accepted requests leave the unfinished ones. -/
theorem Orderly.filter_described (front : History) {rest : History}
    (h : Orderly (front ++ rest))
    (hnodup : ((asked (front ++ rest)).flatMap PartitionAppend.snapshots).Nodup)
    {described : Uuid → Bool}
    (hdescribed : ∀ id, described id = true ↔
      ∃ manifest ∈ inserted (front ++ rest), manifest.id = id)
    (tableId partition : String) :
    (snapshotsFor (accepted rest) tableId partition).filter (fun id ↦ !described id) =
      snapshotsFor (unfinished rest) tableId partition := by
  induction rest generalizing front with
  | nil => rfl
  | cons entry rest ih =>
    obtain ⟨party, exchange⟩ := entry
    have hmove : front ++ (party, exchange) :: rest = front ++ [(party, exchange)] ++ rest :=
      List.append_cons _ _ _
    have hrest := ih (front ++ [(party, exchange)]) (hmove ▸ h) (hmove ▸ hnodup)
      (hmove ▸ hdescribed)
    have hone : (snapshotsFor exchange.accepted tableId partition).filter
          (fun id ↦ !described id) =
        snapshotsFor (if settled party rest then [] else exchange.accepted) tableId partition := by
      have hiff {id : Uuid} (hid : id ∈ snapshotsFor exchange.accepted tableId partition) :
          described id = settled party rest := by
        obtain ⟨part, hpart, -, -, hid⟩ := mem_snapshotsFor.1 hid
        rw [Bool.eq_iff_iff, hdescribed]
        exact h.described_iff hnodup hpart hid
      cases hsettled : settled party rest with
      | true =>
        apply List.filter_eq_nil_iff.2
        intro id hid
        rw [hiff hid, hsettled]
        simp
      | false =>
        apply List.filter_eq_self.2
        intro id hid
        rw [hiff hid, hsettled]
        rfl
    rw [accepted, List.flatMap_cons, unfinished, snapshotsFor_append, snapshotsFor_append,
      List.filter_append, hone]
    exact congrArg _ hrest

end History

/-! ## Reachable catalogs -/

/-- How a catalog serves a call. A call that fails leaves it as it is. -/
inductive Catalog.Serves (before : Catalog) : Exchange → Catalog → Prop where
  | found (name : String) : Serves before ⟨.lookup name, before.lookup name⟩ before
  | lookupFailed (name : String) (cause : CatalogError) :
      Serves before ⟨.lookup name, .error cause⟩ before
  | appended {request : AppendRequest} {keep : Bool} {mode : CommitMode} {after : Catalog}
      (happend : before.append? request keep mode = some after) :
      Serves before ⟨.append request keep mode, .ok true⟩ after
  | rejected {request : AppendRequest} {keep : Bool} {mode : CommitMode}
      (happend : before.append? request keep mode = none) :
      Serves before ⟨.append request keep mode, .ok false⟩ before
  | appendFailed (request : AppendRequest) (keep : Bool) (mode : CommitMode)
      (cause : CatalogError) : Serves before ⟨.append request keep mode, .error cause⟩ before
  | inserted (manifests : List Manifest) :
      Serves before ⟨.insert manifests, .ok ()⟩ (before.insertManifests manifests)
  | insertFailed (manifests : List Manifest) (cause : CatalogError) :
      Serves before ⟨.insert manifests, .error cause⟩ before
  | elsewhere {exchange : Exchange} (hcatalog : exchange.isCatalog = false) :
      Serves before exchange before

/-- Whether a call is answered from the contents and changes them as it asks. -/
def Catalog.Grants (before : Catalog) : Exchange → Catalog → Prop
  | ⟨.lookup name, answer⟩, after => answer = before.lookup name ∧ after = before
  | ⟨.append request keep mode, answer⟩, after =>
    answer = .ok (before.append? request keep mode).isSome ∧
      after = (before.append? request keep mode).getD before
  | ⟨.insert manifests, answer⟩, after =>
    answer = .ok () ∧ after = before.insertManifests manifests
  | _, after => after = before

theorem Catalog.Grants.serves {before after : Catalog} {exchange : Exchange}
    (h : before.Grants exchange after) : before.Serves exchange after := by
  obtain ⟨call, answer⟩ := exchange
  cases call with
  | lookup name =>
    obtain ⟨rfl, rfl⟩ := h
    exact .found name
  | append request keep mode =>
    obtain ⟨rfl, rfl⟩ := h
    cases happend : before.append? request keep mode with
    | none => exact .rejected happend
    | some next => exact .appended happend
  | insert manifests =>
    obtain ⟨rfl, rfl⟩ := h
    exact .inserted manifests
  | _ =>
    obtain rfl : after = before := h
    exact .elsewhere rfl

/-- The catalogs that a history may lead to. Tables are registered at any time. -/
inductive Catalog.Reaches : History → Catalog → Prop where
  | start : Reaches [] .empty
  | register {history : History} {catalog next : Catalog} (table : Table)
      (h : Reaches history catalog) (hregister : catalog.register? table = some next) :
      Reaches history next
  | exchange {history : History} {catalog next : Catalog} (party : Nat) {exchange : Exchange}
      (h : Reaches history catalog) (hserves : catalog.Serves exchange next) :
      Reaches (history ++ [(party, exchange)]) next

namespace Catalog

/-- The chains hold the snapshots of the accepted requests, the manifests are those stored. -/
structure Reflects (catalog : Catalog) (history : History) : Prop where
  chains : ∀ tableId partition, catalog.chain tableId partition =
    snapshotsFor history.accepted tableId partition
  manifests : catalog.Holds history.inserted

theorem reflects_start : empty.Reflects [] :=
  ⟨fun _ _ ↦ rfl, holds_empty⟩

/-- One more call that brings nothing new. -/
theorem Reflects.quiet {catalog : Catalog} {history : History} (h : catalog.Reflects history)
    (party : Nat) {exchange : Exchange} (haccepted : exchange.accepted = [])
    (hinserted : exchange.inserted = []) : catalog.Reflects (history ++ [(party, exchange)]) := by
  constructor
  · intro tableId partition
    rw [h.chains, History.accepted_concat, haccepted, List.append_nil]
  · rw [History.inserted_concat, hinserted, List.append_nil]
    exact h.manifests

theorem Serves.reflects {before after : Catalog} {history : History} {party : Nat}
    {exchange : Exchange} (h : before.Serves exchange after) {standing : Standing}
    (hallows : standing.Allows exchange) (hbefore : before.Reflects history) :
    after.Reflects (history ++ [(party, exchange)]) := by
  cases h with
  | found name => exact hbefore.quiet party rfl rfl
  | lookupFailed name cause => exact hbefore.quiet party rfl rfl
  | @appended request keep mode _ happend =>
    obtain ⟨-, rfl, -, -⟩ := hallows
    constructor
    · intro tableId partition
      calc
        after.chain tableId partition
            = before.chain tableId partition ++
              snapshotsFor request.partitions tableId partition :=
          chain_append? happend tableId partition
        _ = snapshotsFor history.accepted tableId partition ++
              snapshotsFor request.partitions tableId partition := by
          rw [hbefore.chains]
        _ = snapshotsFor (History.accepted (history ++ [(party, _)])) tableId partition := by
          rw [History.accepted_concat, snapshotsFor_append]
          rfl
    · have hnone : Exchange.inserted ⟨.append request true mode, .ok true⟩ = [] := rfl
      rw [History.inserted_concat, hnone, List.append_nil]
      exact hbefore.manifests.of_eq (manifests_append? happend)
  | rejected happend => exact hbefore.quiet party rfl rfl
  | appendFailed request keep mode cause => exact hbefore.quiet party rfl rfl
  | inserted manifests =>
    constructor
    · intro tableId partition
      have hnone : Exchange.accepted ⟨.insert manifests, .ok ()⟩ = [] := rfl
      rw [chain_insertManifests, hbefore.chains, History.accepted_concat, hnone, List.append_nil]
    · rw [History.inserted_concat]
      exact hbefore.manifests.insertManifests manifests
  | insertFailed manifests cause => exact hbefore.quiet party rfl rfl
  | elsewhere hcatalog =>
    obtain ⟨call, answer⟩ := exchange
    cases call with
    | lookup name => cases hcatalog
    | append request keep mode => cases hcatalog
    | insert manifests => cases hcatalog
    | _ => exact hbefore.quiet party rfl rfl

/-- Every reachable catalog reflects the calls that led to it. -/
theorem Reaches.reflects {history : History} {catalog : Catalog} (h : Reaches history catalog)
    (horderly : history.Orderly) : catalog.Reflects history := by
  induction h with
  | start => exact reflects_start
  | register table h hregister ih =>
    constructor
    · intro tableId partition
      rw [chain_register? hregister]
      exact (ih horderly).chains tableId partition
    · exact (ih horderly).manifests.of_eq (manifests_register? hregister)
  | exchange party h hserves ih =>
    have hallows := horderly party
    rw [History.said_append, History.said_cons_self, Standing.orderly_append] at hallows
    exact hserves.reflects hallows.2.1 (ih horderly.left)

section Agreement

variable {catalog : Catalog} {history : History}

theorem Reflects.nodup_chain (h : catalog.Reflects history)
    (hnodup : (history.asked.flatMap PartitionAppend.snapshots).Nodup)
    (tableId partition : String) : (catalog.chain tableId partition).Nodup := by
  have haccepted : (snapshotsFor history.accepted tableId partition).Sublist
      (history.accepted.flatMap PartitionAppend.snapshots) := sublist_snapshotsFor _ _ _
  have hasked : (history.accepted.flatMap PartitionAppend.snapshots).Sublist
      (history.asked.flatMap PartitionAppend.snapshots) := history.accepted_sublist_asked.flatMap _
  rw [h.chains]
  exact hnodup.sublist (haccepted.trans hasked)

/-- A snapshot belongs to the chain of one partition only. -/
theorem Reflects.unique_chain (h : catalog.Reflects history)
    (hnodup : (history.asked.flatMap PartitionAppend.snapshots).Nodup) {id : Uuid}
    {tableId partition tableId' partition' : String}
    (hid : id ∈ catalog.chain tableId partition)
    (hid' : id ∈ catalog.chain tableId' partition') :
    tableId = tableId' ∧ partition = partition' := by
  rw [h.chains, mem_snapshotsFor] at hid hid'
  obtain ⟨part, hpart, rfl, rfl, hid⟩ := hid
  obtain ⟨part', hpart', rfl, rfl, hid'⟩ := hid'
  have hasked : part ∈ history.asked := history.accepted_sublist_asked.subset hpart
  have hasked' : part' ∈ history.asked := history.accepted_sublist_asked.subset hpart'
  have hsame : part = part' := eq_of_mem_flatMap hnodup hasked hasked' hid hid'
  exact ⟨congrArg PartitionAppend.tableId hsame, congrArg PartitionAppend.partition hsame⟩

/-- The snapshot of a manifest is in the chain of the manifest's partition. -/
theorem Reflects.mem_chain_of_manifest (h : catalog.Reflects history) (horderly : history.Orderly)
    {id : Uuid} {manifest : Manifest} (hmanifest : catalog.manifest? id = some manifest) :
    manifest.id = id ∧ id ∈ catalog.chain manifest.tableId manifest.partition := by
  obtain ⟨hmem, rfl⟩ := h.manifests.stored id manifest hmanifest
  obtain ⟨front, party, request, keep, mode, rest, rfl, -, part, hpart, htable, hpartition,
    hsnapshots⟩ := horderly.request_of_inserted hmem
  refine ⟨rfl, ?_⟩
  rw [h.chains, mem_snapshotsFor]
  refine ⟨part, ?_, htable, hpartition, by rw [hsnapshots]; exact List.mem_cons_self⟩
  exact List.mem_flatMap.2
    ⟨(party, ⟨.append request keep mode, .ok true⟩), by simp, hpart⟩

/-- The snapshots without a manifest are those of the unfinished requests. -/
theorem Reflects.undescribed_eq (h : catalog.Reflects history) (horderly : history.Orderly)
    (hnodup : (history.asked.flatMap PartitionAppend.snapshots).Nodup)
    (tableId partition : String) :
    catalog.undescribed tableId partition = snapshotsFor history.unfinished tableId partition := by
  rw [undescribed, h.chains]
  exact History.Orderly.filter_described [] horderly hnodup h.manifests.contains_iff
    tableId partition

theorem mem_undescribed {tableId partition : String} {id : Uuid} :
    id ∈ catalog.undescribed tableId partition ↔
      id ∈ catalog.chain tableId partition ∧ catalog.manifest? id = none := by
  rw [undescribed, List.mem_filter, SequencedMap.contains_eq_isSome, manifest?]
  cases catalog.manifests.find? id <;> simp

end Agreement

end Catalog

namespace History

/-- A party that has come to the end of its commits has not left a request waiting. -/
theorem settled_of_concluded {front rest : History} {party : Nat} {request : AppendRequest}
    {keep : Bool} {mode : CommitMode}
    (hconcluded : Concluded
      (said party (front ++ (party, ⟨.append request keep mode, .ok true⟩) :: rest)))
    (hstored : ∀ manifests cause, (party, (⟨.insert manifests, .error cause⟩ : Exchange)) ∉ rest) :
    settled party rest = true := by
  obtain ⟨horderly, hend⟩ := hconcluded.balanced ⟨[], none⟩ rfl
  rw [said_append, said_cons_self, Standing.orderly_append] at horderly
  rw [said_append, said_cons_self, Standing.after_append] at hend
  have hnext := horderly.2.2
  unfold settled
  cases hsaid : said party rest with
  | nil =>
    rw [hsaid] at hend
    cases hend
  | cons next later =>
    rw [hsaid] at hnext
    have hmem : (party, next) ∈ rest := by
      rw [← mem_said, hsaid]
      exact List.mem_cons_self
    obtain ⟨call, answer⟩ := next
    cases call with
    | insert manifests =>
      rcases answer with cause | _
      · exact absurd hmem (hstored manifests cause)
      · rfl
    | append other keep' mode' => cases hnext.1.1
    | _ => cases hnext.1

/-- Nothing is unfinished once every party has come to the end of its commits without failing to
store manifests. -/
theorem unfinished_eq_nil (front : History) {rest : History}
    (hconcluded : ∀ party, Concluded (said party (front ++ rest)))
    (hstored : ∀ party manifests cause,
      (party, (⟨.insert manifests, .error cause⟩ : Exchange)) ∉ front ++ rest) :
    unfinished rest = [] := by
  induction rest generalizing front with
  | nil => rfl
  | cons entry rest ih =>
    obtain ⟨party, exchange⟩ := entry
    have hmove : front ++ (party, exchange) :: rest = front ++ [(party, exchange)] ++ rest :=
      List.append_cons _ _ _
    have hrest : unfinished rest = [] := ih _ (hmove ▸ hconcluded) (hmove ▸ hstored)
    rw [unfinished, hrest, List.append_nil]
    split
    · rfl
    · rename_i hopen
      unfold Exchange.accepted
      split
      · refine absurd (settled_of_concluded (hconcluded party) fun manifests cause hmem ↦ ?_) hopen
        exact hstored party manifests cause
          (List.mem_append_right _ (List.mem_cons_of_mem _ hmem))
      · rfl

end History

/-- Chains and manifests agree in every reachable catalog, however the calls of its coordinators
are interleaved and wherever they stop. -/
theorem chains_agree_with_manifests {history : History} {catalog : Catalog}
    (hreaches : Catalog.Reaches history catalog)
    (hparties : ∀ party, Conducted (history.said party)) (hfresh : history.drawn.Nodup) :
    (∀ id manifest, catalog.manifest? id = some manifest →
      manifest.id = id ∧
      (catalog.chain manifest.tableId manifest.partition).count id = 1 ∧
      ∀ tableId partition, id ∈ catalog.chain tableId partition →
        tableId = manifest.tableId ∧ partition = manifest.partition) ∧
    (∀ tableId partition, ∀ id ∈ catalog.chain tableId partition,
      (∃ manifest, catalog.manifest? id = some manifest ∧ manifest.id = id ∧
        manifest.tableId = tableId ∧ manifest.partition = partition) ∨
      id ∈ snapshotsFor history.unfinished tableId partition) ∧
    (∀ tableId partition,
      catalog.undescribed tableId partition =
        snapshotsFor history.unfinished tableId partition) ∧
    ((∀ party, Concluded (history.said party)) →
      (∀ party manifests cause,
        (party, (⟨.insert manifests, .error cause⟩ : Exchange)) ∉ history) →
      ∀ tableId partition, catalog.undescribed tableId partition = []) := by
  have horderly : history.Orderly := fun party ↦ (hparties party).orderly
  have hnodup := horderly.nodup_asked hfresh
  have hreflects := hreaches.reflects horderly
  have hundescribed := hreflects.undescribed_eq horderly hnodup
  refine ⟨fun id manifest hmanifest ↦ ?_, fun tableId partition id hid ↦ ?_, hundescribed,
    fun hconcluded hstored tableId partition ↦ ?_⟩
  · obtain ⟨hid, hmem⟩ := hreflects.mem_chain_of_manifest horderly hmanifest
    refine ⟨hid, ?_, fun tableId partition hother ↦ hreflects.unique_chain hnodup hother hmem⟩
    exact List.count_eq_one_of_mem (hreflects.nodup_chain hnodup _ _) hmem
  · cases hmanifest : catalog.manifest? id with
    | none =>
      rw [← hundescribed]
      exact .inr (Catalog.mem_undescribed.2 ⟨hid, hmanifest⟩)
    | some manifest =>
      obtain ⟨hsame, hmem⟩ := hreflects.mem_chain_of_manifest horderly hmanifest
      obtain ⟨htable, hpartition⟩ := hreflects.unique_chain hnodup hmem hid
      exact .inl ⟨manifest, rfl, hsame, htable, hpartition⟩
  · rw [hundescribed, History.unfinished_eq_nil [] hconcluded hstored]
    rfl

/-- A table, a snapshot and the request of its partition `a`. -/
def leakedRequest : AppendRequest :=
  ⟨⟨"t1", "orders", "/orders", ""⟩, [⟨"t1", "a", .append, [.last]⟩]⟩

/-- The first calls of a coordinator that stops as soon as its request has been accepted. -/
def leakedHistory : History :=
  [(0, emitted (.pendingPartitions "orders" 0)), (0, emitted (.quorumReached "orders")),
    (0, ⟨.lookup "orders", .ok leakedRequest.table⟩),
    (0, ⟨.list (Storage.joinPath "/orders" "a"), .ok []⟩),
    (0, ⟨.freshId, .last⟩), (0, ⟨.currentTime, 0⟩),
    (0, ⟨.append leakedRequest true .append, .ok true⟩)]

/-- The catalog with the table before and after the request. -/
def leakedTables : Catalog :=
  { Catalog.empty with tables := Catalog.empty.tables.insert "orders" leakedRequest.table }

/-- What the coordinator does unless it stops. -/
def leakedStep : Step :=
  .of (Call.granted leakedRequest.table [] .last)
    ((Coordinator.new "orders" (.ofLocation "/orders")).start .empty)
    (.record ⟨5, 0, 1, "orders", "", .ofList ["a"]⟩)

def leakedCatalog : Catalog :=
  (leakedTables.append? leakedRequest true .append).getD leakedTables

theorem chains_agree_with_manifests_leaked :
    leakedCatalog.undescribed "t1" "a" = [.last] := by
  have happend : leakedTables.append? leakedRequest true .append = some leakedCatalog := by
    decide +kernel
  have hlaunch : Yields ((Coordinator.new "orders" (.ofLocation "/orders")).launch store false)
      [emitted (.pendingPartitions "orders" 0)] (.ok (), leakedStep.before) :=
    yields_replay (Call.granted leakedRequest.table [] .last) _
  have hrun : Run leakedStep.before [leakedStep] leakedStep.after :=
    .snoc .nil (Step.valid_of _ _ _)
  have hparties (party : Nat) : Conducted (leakedHistory.said party) := by
    by_cases hparty : 0 = party
    · subst hparty
      exact ⟨leakedStep.transcript.drop 6, _, _, _, _, _, _, _, hlaunch, hrun, rfl⟩
    · have hsilent : leakedHistory.said party = [] := by simp [leakedHistory, History.said, hparty]
      rw [hsilent]
      exact ⟨_, _, _, _, _, _, _, _, hlaunch, hrun, rfl⟩
  have hreaches : Catalog.Reaches leakedHistory leakedCatalog :=
    .exchange 0 (.exchange 0 (.exchange 0 (.exchange 0 (.exchange 0 (.exchange 0 (.exchange 0
      (.register leakedRequest.table .start rfl) (.elsewhere rfl)) (.elsewhere rfl))
      (.found "orders")) (.elsewhere rfl)) (.elsewhere rfl)) (.elsewhere rfl)) (.appended happend)
  rw [(chains_agree_with_manifests hreaches hparties (by decide +kernel)).2.2.1]
  decide +kernel

/-! ## Catalogs in memory -/

namespace MemoryCatalog

theorem run_append (catalog : Catalog) (request : AppendRequest) (keep : Bool)
    (mode : CommitMode) :
    (append request keep mode : StateM Catalog _).run catalog =
      match catalog.append? request keep mode with
      | some next => (.ok true, next)
      | none => (.ok false, catalog) := by
  have hget : (getThe Catalog : StateM Catalog _).run catalog = pure (catalog, catalog) := rfl
  rw [append, StateT.run_bind, hget, pure_bind]
  cases catalog.append? request keep mode <;> rfl

/-- A catalog in memory serves calls as every catalog does. -/
theorem serves (catalog : Catalog) :
    (∀ name, let (answer, after) := (lookup name : StateM Catalog _).run catalog
      catalog.Serves ⟨.lookup name, answer⟩ after) ∧
    (∀ request keep mode, let (answer, after) :=
        (append request keep mode : StateM Catalog _).run catalog
      catalog.Serves ⟨.append request keep mode, answer⟩ after) ∧
    (∀ manifests, let (answer, after) := (insert manifests : StateM Catalog _).run catalog
      catalog.Serves ⟨.insert manifests, answer⟩ after) := by
  refine ⟨fun name ↦ .found name, fun request keep mode ↦ ?_, fun manifests ↦ .inserted manifests⟩
  rw [run_append]
  cases happend : catalog.append? request keep mode with
  | none => exact .rejected happend
  | some next => exact .appended happend

end MemoryCatalog

end CommitCoordinator
