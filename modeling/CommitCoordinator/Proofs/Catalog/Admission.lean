import CommitCoordinator.Proofs.Catalog.Agreement
import CommitCoordinator.Proofs.Catalog.FileRefinement
import CommitCoordinator.Proofs.Coordinator.Informed

/-!
# Requests of coordinators are never refused

A catalog refuses a request for a table that it does not know, for parts that do not belong
together, and for snapshots that it has already. Tables are never forgotten and snapshots only come
from requests, so a coordinator that asks with fresh snapshots for a table that it found is never
refused, whatever other parties did to the catalog in between.
-/

namespace CommitCoordinator

open Dialogue Storage

namespace Catalog

/-! ## What a catalog keeps -/

variable {catalog before after : Catalog}

theorem knowsTableId_iff {tableId : String} :
    catalog.knowsTableId tableId = true ↔ ∃ table ∈ catalog.tables.values, table.id = tableId := by
  simp [knowsTableId]

theorem mem_values_of_table? {name : String} {table : Table}
    (h : catalog.table? name = some table) : table ∈ catalog.tables.values := by
  obtain ⟨entry, hentry, rfl⟩ := Option.map_eq_some_iff.1 h
  exact List.mem_map_of_mem (List.mem_of_find?_eq_some hentry)

/-- A registered table does not push another one out. -/
theorem knowsTableId_register? {table : Table} (h : before.register? table = some after)
    {tableId : String} (hknows : before.knowsTableId tableId = true) :
    after.knowsTableId tableId = true := by
  unfold register? at h
  split at h
  · cases h
  · next hnew =>
    cases h
    have hnew : table.name ∉ before.tables.entries.map Prod.fst :=
      of_decide_eq_false (Bool.eq_false_iff.2 hnew)
    obtain ⟨other, hother, hid⟩ := knowsTableId_iff.1 hknows
    refine knowsTableId_iff.2 ⟨other, ?_, hid⟩
    rw [SequencedMap.values, SequencedMap.insert, dif_neg hnew, List.map_append]
    exact List.mem_append_left _ hother

theorem Serves.tables_eq {exchange : Exchange} (h : before.Serves exchange after) :
    after.tables = before.tables := by
  cases h with
  | appended happend =>
    obtain ⟨-, rfl⟩ := append?_eq_some happend
    rfl
  | _ => rfl

/-- A table that is found is known. -/
theorem Serves.knows_of_found {name : String} {table : Table}
    (h : before.Serves ⟨.lookup name, .ok table⟩ after) :
    before.knowsTableId table.id = true := by
  have hlookup : before.lookup name = .ok table := by
    generalize hexchange : (⟨.lookup name, .ok table⟩ : Exchange) = exchange at h
    cases h with
    | found other =>
      obtain ⟨hcall, hanswer⟩ := Exchange.mk.inj hexchange
      obtain rfl := Call.lookup.inj hcall
      exact (eq_of_heq hanswer).symm
    | elsewhere hcatalog =>
      rw [← hexchange] at hcatalog
      cases hcatalog
    | _ => cases hexchange
  unfold lookup at hlookup
  split at hlookup
  · next htable =>
    cases hlookup
    exact knowsTableId_iff.2 ⟨table, mem_values_of_table? htable, rfl⟩
  · cases hlookup

/-- Snapshots come into a catalog by requests that name them. -/
theorem Serves.mem_chain {exchange : Exchange} (h : before.Serves exchange after)
    {tableId partition : String} {id : Uuid} (hid : id ∈ after.chain tableId partition) :
    id ∈ before.chain tableId partition ∨
      id ∈ exchange.asked.flatMap PartitionAppend.snapshots := by
  cases h with
  | appended happend => exact mem_chain_append? happend hid
  | _ => exact .inl hid

theorem append?_eq_none {request : AppendRequest} {keep : Bool} {mode : CommitMode} :
    catalog.append? request keep mode = none ↔ catalog.admits request = false := by
  unfold append?
  cases catalog.admits request <;> simp

theorem admits_of_coherent {request : AppendRequest} (hcoherent : request.Coherent)
    (hknows : catalog.knowsTableId request.table.id = true)
    (hnew : ∀ id ∈ request.snapshots, ∀ tableId partition, id ∉ catalog.chain tableId partition) :
    catalog.admits request = true := by
  rw [admits, hknows, decide_eq_true hcoherent.nodup, Bool.and_true, Bool.true_and,
    List.all_eq_true]
  intro part hpart
  rw [admitsPartition, decide_eq_true (hcoherent.own part hpart), Bool.true_and,
    List.all_eq_true]
  intro id hid
  have hfresh := hnew id (List.mem_flatMap.2 ⟨part, hpart, hid⟩) request.table.id part.partition
  simpa using hfresh

/-! ## Catalogs that many parties use -/

/-- The catalogs that a history may lead to from one that is there already. Tables are registered at
any time. -/
inductive ReachesFrom (start : Catalog) : History → Catalog → Prop where
  | start : ReachesFrom start [] start
  | register {history : History} {catalog next : Catalog} (table : Table)
      (h : ReachesFrom start history catalog) (hregister : catalog.register? table = some next) :
      ReachesFrom start history next
  | exchange {history : History} {catalog next : Catalog} (party : Nat) {exchange : Exchange}
      (h : ReachesFrom start history catalog) (hserves : catalog.Serves exchange next) :
      ReachesFrom start (history ++ [(party, exchange)]) next

section ReachesFrom

variable {start : Catalog} {history : History}

/-- Each call of a history was served by the catalog that the calls before it led to. -/
theorem ReachesFrom.served {front rest : History} {party : Nat} {exchange : Exchange}
    (h : ReachesFrom start (front ++ (party, exchange) :: rest) catalog) :
    ∃ before after, ReachesFrom start front before ∧ before.Serves exchange after := by
  generalize hhistory : front ++ (party, exchange) :: rest = history at h
  induction h generalizing rest with
  | start => simp at hhistory
  | register table _ _ ih => exact ih hhistory
  | @exchange earlier before after other last hreaches hserves ih =>
    rcases List.eq_nil_or_concat rest with rfl | ⟨rest, final, rfl⟩
    · obtain ⟨rfl, hlast⟩ := List.append_inj' hhistory rfl
      cases hlast
      exact ⟨before, after, hreaches, hserves⟩
    · rw [List.concat_eq_append, ← List.cons_append, ← List.append_assoc] at hhistory
      exact ih (List.append_inj' hhistory rfl).1

/-- A table that was found once stays known. -/
theorem ReachesFrom.knows_of_found (h : ReachesFrom start history catalog) {party : Nat}
    {name : String} {table : Table} (hfound : (party, ⟨.lookup name, .ok table⟩) ∈ history) :
    catalog.knowsTableId table.id = true := by
  induction h with
  | start => cases hfound
  | register _ _ hregister ih => exact knowsTableId_register? hregister (ih hfound)
  | exchange other hreaches hserves ih =>
    rw [knowsTableId, hserves.tables_eq, ← knowsTableId]
    rcases List.mem_append.1 hfound with hearlier | hlast
    · exact ih hearlier
    · obtain ⟨-, rfl⟩ := Prod.mk.inj (List.mem_singleton.1 hlast)
      exact hserves.knows_of_found

/-- A snapshot in a chain was there from the start or has been asked for. -/
theorem ReachesFrom.mem_chain (h : ReachesFrom start history catalog) {tableId partition : String}
    {id : Uuid} (hid : id ∈ catalog.chain tableId partition) :
    id ∈ start.chain tableId partition ∨ id ∈ history.asked.flatMap PartitionAppend.snapshots := by
  induction h with
  | start => exact .inl hid
  | register _ _ hregister ih =>
    rw [chain_register? hregister] at hid
    exact ih hid
  | exchange party hreaches hserves ih =>
    rw [History.asked, List.flatMap_append, List.flatMap_append, List.mem_append,
      List.flatMap_singleton]
    rcases hserves.mem_chain hid with hbefore | hasked
    · exact (ih hbefore).imp_right .inl
    · exact .inr (.inr hasked)

end ReachesFrom

end Catalog

/-! ## Fresh snapshots -/

namespace History

/-- The calls of some of the parties. -/
def ofParties (chosen : Nat → Bool) (history : History) : History :=
  history.filter fun entry ↦ chosen entry.1

/-- Whether the snapshots that some parties draw are new: none is drawn twice or in the catalog from
the start, and no other party asks for one before the party that has drawn it. -/
structure Fresh (chosen : Nat → Bool) (start : Catalog) (history : History) : Prop where
  nodup : (history.ofParties chosen).drawn.Nodup
  absent : ∀ id ∈ (history.ofParties chosen).drawn, ∀ tableId partition,
    id ∉ start.chain tableId partition
  unguessed : ∀ (front : History) party exchange rest,
    history = front ++ (party, exchange) :: rest → chosen party = false →
      ∀ id ∈ exchange.asked.flatMap PartitionAppend.snapshots,
        id ∈ (history.ofParties chosen).drawn →
          id ∈ (asked (front.ofParties chosen)).flatMap PartitionAppend.snapshots

variable {chosen : Nat → Bool} {start : Catalog} {history : History}

theorem said_ofParties {party : Nat} (h : chosen party = true) (history : History) :
    said party (history.ofParties chosen) = said party history := by
  rw [said, ofParties, List.filter_filter, said]
  congr 1
  refine List.filter_congr fun entry _ ↦ ?_
  by_cases hparty : entry.1 = party
  · simp [hparty, h]
  · simp [hparty]

theorem said_ofParties_of_not {party : Nat} (h : chosen party = false) (history : History) :
    said party (history.ofParties chosen) = [] := by
  rw [said, ofParties, List.filter_filter, List.map_eq_nil_iff, List.filter_eq_nil_iff]
  rintro ⟨other, exchange⟩ -
  rw [Bool.and_eq_true, decide_eq_true_iff]
  rintro ⟨rfl, hchosen⟩
  exact Bool.noConfusion (h.symm.trans hchosen)

theorem orderly_ofParties
    (hparties : ∀ party, chosen party = true → Conducted (history.said party)) :
    (history.ofParties chosen).Orderly := by
  intro party
  cases hchosen : chosen party with
  | true =>
    rw [said_ofParties hchosen]
    exact (hparties party hchosen).orderly
  | false =>
    rw [said_ofParties_of_not hchosen]
    trivial

theorem ofParties_split {party : Nat} (h : chosen party = true) (front : History)
    (exchange : Exchange) (rest : History) :
    (front ++ (party, exchange) :: rest).ofParties chosen =
      front.ofParties chosen ++ (party, exchange) :: rest.ofParties chosen := by
  rw [ofParties, List.filter_append]
  exact congrArg _ (List.filter_cons_of_pos h)

/-- What a party that draws fresh snapshots asks for has not been asked for before by anyone. -/
theorem Fresh.unasked {front rest : History} {party : Nat} {exchange : Exchange}
    (hfresh : Fresh chosen start (front ++ (party, exchange) :: rest))
    (hparties : ∀ other, chosen other = true →
      Conducted (said other (front ++ (party, exchange) :: rest)))
    (hparty : chosen party = true) {id : Uuid}
    (hid : id ∈ exchange.asked.flatMap PartitionAppend.snapshots) :
    id ∈ ((front ++ (party, exchange) :: rest).ofParties chosen).drawn ∧
      id ∉ front.asked.flatMap PartitionAppend.snapshots := by
  have horderly := orderly_ofParties hparties
  have hmem : (party, exchange) ∈ (front ++ (party, exchange) :: rest).ofParties chosen := by
    rw [ofParties_split hparty]
    exact List.mem_append_right _ List.mem_cons_self
  obtain ⟨draw, hdraw, hdrawn⟩ := horderly.mem_drawn hmem hid
  have hdrawnAll : id ∈ ((front ++ (party, exchange) :: rest).ofParties chosen).drawn :=
    List.mem_flatMap.2 ⟨_, hdraw, hdrawn⟩
  have honce : id ∉ (asked (front.ofParties chosen)).flatMap PartitionAppend.snapshots := by
    have hnodup := horderly.nodup_asked hfresh.nodup
    rw [ofParties_split hparty, asked, List.flatMap_append, List.flatMap_append,
      List.flatMap_cons, List.flatMap_append] at hnodup
    intro hearlier
    exact (List.nodup_append'.1 hnodup).2.2 hearlier (List.mem_append_left _ hid)
  refine ⟨hdrawnAll, fun hasked ↦ ?_⟩
  obtain ⟨part, hpart, hsnapshot⟩ := List.mem_flatMap.1 hasked
  obtain ⟨⟨other, request⟩, hrequest, hasks⟩ := List.mem_flatMap.1 hpart
  cases hother : chosen other with
  | true =>
    refine honce (List.mem_flatMap.2 ⟨part, List.mem_flatMap.2 ⟨(other, request), ?_, hasks⟩,
      hsnapshot⟩)
    exact List.mem_filter.2 ⟨hrequest, hother⟩
  | false =>
    obtain ⟨earlier, later, rfl⟩ := List.append_of_mem hrequest
    have hguess := hfresh.unguessed earlier other request (later ++ (party, exchange) :: rest)
      (by simp) hother id (List.mem_flatMap.2 ⟨part, hasks, hsnapshot⟩) hdrawnAll
    refine honce ?_
    rw [ofParties, List.filter_append, asked, List.flatMap_append, List.flatMap_append]
    exact List.mem_append_left _ hguess

/-- The request of a coordinator is never refused. -/
theorem Fresh.not_refused {catalog : Catalog} (hfresh : Fresh chosen start history)
    (hreaches : Catalog.ReachesFrom start history catalog)
    (hparties : ∀ party, chosen party = true → Conducted (history.said party))
    {party : Nat} (hparty : chosen party = true) (request : AppendRequest) (keep : Bool)
    (mode : CommitMode) : (party, ⟨.append request keep mode, .ok false⟩) ∉ history := by
  intro hmem
  obtain ⟨front, rest, rfl⟩ := List.append_of_mem hmem
  obtain ⟨before, after, hbefore, hserves⟩ := hreaches.served
  have hrefused : before.append? request keep mode = none := by
    cases hserves with
    | rejected happend => exact happend
    | elsewhere hcatalog => cases hcatalog
  have hinformed := (hparties party hparty).informed
  rw [said_append, said_cons_self, informed_append] at hinformed
  obtain ⟨⟨hfound, hcoherent⟩, -⟩ := hinformed.2
  have hknows : before.knowsTableId request.table.id = true := by
    rcases lookup_of_foundAfter hfound with hnone | ⟨name, hlookup⟩
    · cases hnone
    · exact hbefore.knows_of_found (mem_said.1 hlookup)
  have hnew : ∀ id ∈ request.snapshots, ∀ tableId partition,
      id ∉ before.chain tableId partition := by
    intro id hid tableId partition hchain
    obtain ⟨hdrawn, hunasked⟩ := hfresh.unasked hparties hparty hid
    exact (hbefore.mem_chain hchain).elim (hfresh.absent id hdrawn tableId partition) hunasked
  rw [Catalog.append?_eq_none, Catalog.admits_of_coherent hcoherent hknows hnew] at hrefused
  cases hrefused

end History

/-! ## Steps of coordinators -/

/-- A lookup, a listing or a request to append that failed. -/
def Exchange.isFault : Exchange → Bool
  | ⟨.lookup _, .error _⟩ => true
  | ⟨.list _, .error _⟩ => true
  | ⟨.append _ _ _, .error _⟩ => true
  | _ => false

/-- Whether no report was answered with a rejection, and whatever a completed checkpoint drained was
appended unless a lookup, a listing or the request failed. -/
structure Step.Granted (step : Step) : Prop where
  not_rejected : ∀ table checkpoint count,
    step.result ≠ .error (.rejected table checkpoint count)
  appended : ∀ report received, step.event = .record report →
    step.before.receive report = .ok (received, true) → received.pendingList ≠ [] →
      (∀ exchange ∈ step.transcript, exchange.isFault = false) →
        ∃ request, (⟨.append request true .append, .ok true⟩ : Exchange) ∈ step.transcript ∧
          request.partitions.map PartitionAppend.partition = received.pendingList ∧
          step.after.pendingList = []

namespace Attempt.Course

variable {options : SinkOptions} {report : Report} {partitions : List String}
  {transcript : List Exchange} {attempt : Attempt}

theorem refused_of_rejected (h : Course options report partitions transcript .rejected) :
    ∃ request, (⟨.append request true .append, .ok false⟩ : Exchange) ∈ transcript := by
  cases h with
  | sent table findings time hpartitions hphases =>
    cases hphases
    exact ⟨_, List.mem_cons_of_mem _ (List.mem_append_right _
      (List.mem_cons_of_mem _ List.mem_cons_self))⟩

/-- An attempt in which nothing failed and no request was refused has appended its partitions. -/
theorem appended_of_faultless (h : Course options report partitions transcript attempt)
    (hfaultless : ∀ exchange ∈ transcript, exchange.isFault = false)
    (hgranted : ∀ request keep mode,
      (⟨.append request keep mode, .ok false⟩ : Exchange) ∉ transcript) :
    attempt.isAppended = true ∧
      ∃ request, (⟨.append request true .append, .ok true⟩ : Exchange) ∈ transcript ∧
        request.partitions.map PartitionAppend.partition = partitions := by
  cases h with
  | lookupFailed cause => cases hfaultless _ List.mem_cons_self
  | listingFailed table findings partition rest cause =>
    cases hfaultless _ (List.mem_cons_of_mem _ (List.mem_append_right _ List.mem_cons_self))
  | @sent table findings time phases _ hpartitions hphases =>
    have hmem {exchange : Exchange} (hexchange : exchange ∈ phases) :=
      List.mem_cons_of_mem (⟨.lookup report.table, .ok table⟩ : Exchange)
        (List.mem_append_right (findings.flatMap (·.exchanges options))
          (List.mem_cons_of_mem ⟨.currentTime, time⟩ hexchange))
    have hnames := (partitions_payloadOf options report.fileMark table findings time).trans
      hpartitions.symm
    cases hphases with
    | appendFailed cause => cases hfaultless _ (hmem List.mem_cons_self)
    | rejected => exact absurd (hmem List.mem_cons_self) (hgranted _ _ _)
    | insertFailed cause => exact ⟨rfl, _, hmem List.mem_cons_self, hnames⟩
    | committed => exact ⟨rfl, _, hmem List.mem_cons_self, hnames⟩

end Attempt.Course

theorem Coordinator.receive_ne_rejected {coordinator : Coordinator} {report : Report}
    {table : String} {checkpoint : Int64} {count : Nat} :
    coordinator.receive report ≠ .error (.rejected table checkpoint count) := by
  unfold receive
  split
  · nofun
  · split <;> nofun

/-- Behind a rejection there is a refused request. -/
theorem Coordinator.Processed.refused_of_rejected {before after : Coordinator} {report : Report}
    {transcript : List Exchange} {table : String} {checkpoint : Int64} {count : Nat}
    (h : before.Processed report transcript (.error (.rejected table checkpoint count)) after) :
    ∃ request, (⟨.append request true .append, .ok false⟩ : Exchange) ∈ transcript := by
  generalize hresult : (Except.error (.rejected table checkpoint count) :
    Except CommitError (Option CommitSummary)) = result at h
  cases h with
  | refused hreceive =>
    cases hresult
    exact absurd hreceive receive_ne_rejected
  | awaited _ => cases hresult
  | idle _ _ => cases hresult
  | @attempted received exchanges attempt _ _ hcourse =>
    cases attempt with
    | rejected =>
      obtain ⟨request, hrequest⟩ := hcourse.refused_of_rejected
      exact ⟨request, List.mem_cons_of_mem _ (List.mem_append_left _ hrequest)⟩
    | _ => cases hresult

theorem Coordinator.Stored.ne_rejected {before : Coordinator} {id : Int64}
    {transcript : List Exchange} {result : Except CommitError Unit}
    (h : before.Stored id transcript result) (table : String) (checkpoint : Int64) (count : Nat) :
    result ≠ .error (.rejected table checkpoint count) := by
  cases h <;> nofun

/-- Where no request is refused, every step is granted what it asks for. -/
theorem Step.Valid.granted {step : Step} (h : step.Valid)
    (hgranted : ∀ request keep mode,
      (⟨.append request keep mode, .ok false⟩ : Exchange) ∉ step.transcript) :
    step.Granted where
  not_rejected := by
    intro table checkpoint count hresult
    cases hevent : step.event with
    | record report =>
      obtain ⟨request, hrequest⟩ := (hresult ▸ h.processed hevent).refused_of_rejected
      exact hgranted _ _ _ hrequest
    | watermark timestamp =>
      rw [(h.observed hevent).2.1] at hresult
      cases hresult
    | checkpoint id =>
      obtain ⟨result, hstored, hsame, -⟩ := h.stored hevent
      rw [hsame] at hresult
      cases result with
      | error cause =>
        exact hstored.ne_rejected table checkpoint count (by cases hresult; rfl)
      | ok _ => cases hresult
  appended := by
    intro report received hevent hreceive hpending hfaultless
    obtain ⟨hempty, -⟩ | ⟨-, exchanges, attempt, hcourse, htranscript, -, hafter⟩ :=
      (h.processed hevent).of_completed hreceive
    · exact absurd hempty hpending
    · have hmem {exchange : Exchange} (hexchange : exchange ∈ exchanges) :
          exchange ∈ step.transcript := by
        rw [htranscript]
        exact List.mem_cons_of_mem _ (List.mem_append_left _ hexchange)
      obtain ⟨happended, request, hrequest, hnames⟩ := hcourse.appended_of_faultless
        (fun exchange hexchange ↦ hfaultless exchange (hmem hexchange))
        fun request keep mode hexchange ↦ hgranted request keep mode (hmem hexchange)
      refine ⟨request, hmem hrequest, hnames, ?_⟩
      rw [hafter, Coordinator.afterAttempt, if_pos happended, Coordinator.pendingList_drain]

/-- However the calls of any number of coordinators and of other parties are interleaved, no
request of a coordinator is refused, so its reports are never rejected and what it drains is
appended unless something fails. -/
theorem coordinators_never_refused {chosen : Nat → Bool} {start catalog : Catalog}
    {history : History} (hreaches : Catalog.ReachesFrom start history catalog)
    (hparties : ∀ party, chosen party = true → Conducted (history.said party))
    (hfresh : history.Fresh chosen start) :
    (∀ party, chosen party = true → ∀ request keep mode,
      (party, (⟨.append request keep mode, .ok false⟩ : Exchange)) ∉ history) ∧
    ∀ party, chosen party = true →
      ∀ (before launched current : Coordinator) (restored : Bool) (loading : List Exchange)
        (result : Except CommitError Unit) (steps : List Step),
        Yields (before.launch store restored) loading (result, launched) →
        Run launched steps current →
        loading ++ steps.flatMap Step.transcript <+: history.said party →
        ∀ step ∈ steps, step.Granted := by
  have hnever (party : Nat) (hparty : chosen party = true) (request : AppendRequest)
      (keep : Bool) (mode : CommitMode) :
      (party, (⟨.append request keep mode, .ok false⟩ : Exchange)) ∉ history :=
    hfresh.not_refused hreaches hparties hparty request keep mode
  refine ⟨hnever, ?_⟩
  rintro party hparty before launched current restored loading result steps - hrun hsaid step
    hstep
  refine (hrun.valid step hstep).granted fun request keep mode hmem ↦ ?_
  refine hnever party hparty request keep mode (History.mem_said.1 (hsaid.subset ?_))
  exact List.mem_append_right loading (List.mem_flatMap.2 ⟨step, hstep, hmem⟩)

/-! ## Catalogs in files -/

namespace FileCatalog

variable {σ : Type} [MonadFileSystem (StateM σ)] {path : String} (laws : FileLaws σ path) {s : σ}
  {catalog : Catalog} {α : Type}

/-- Whether an operation failed because of the file. -/
def Faulted (answer : Except CatalogError α) : Prop :=
  ∃ path cause, answer = .error (.io path cause)

theorem faulted_map {answer : Except CatalogError α} {f : α → CatalogReply}
    (h : CatalogResult.Faulted (answer.map f)) : Faulted answer := by
  obtain ⟨path, cause, hanswer⟩ := h
  cases answer with
  | error e =>
    cases hanswer
    exact ⟨path, cause, rfl⟩
  | ok value => cases hanswer

/-- A call that does not fail because of the file does to its contents what it does in memory. -/
theorem run_onFile_eq (hsound : laws.sound s) (hheld : held path (laws.content s) = .ok catalog)
    (call : CatalogCall) {answer : Except CatalogError α} {f : α → CatalogReply} {after : σ}
    (hrun : (call.onFile path : StateM σ CatalogResult).run s = (answer.map f, after))
    (hfault : ¬Faulted answer) :
    laws.sound after ∧ ∃ next, held path (laws.content after) = .ok next ∧
      (match call.apply catalog with
        | .error e => (.error e, catalog)
        | .ok (reply, changed) => (.ok reply, changed.getD catalog)) = (answer.map f, next) := by
  obtain ⟨next, hmemory, hafter, hnow, -⟩ :=
    CatalogCall.run_onFile laws hsound hheld call hrun (mt faulted_map hfault)
  exact ⟨hafter, next, hnow, (CatalogCall.inMemory_eq call catalog).symm.trans hmemory⟩

/-- A catalog in a file answers as its contents tell, unless a file operation fails. -/
theorem grants (hsound : laws.sound s) (hheld : held path (laws.content s) = .ok catalog) :
    (∀ name, let (answer, after) := (lookup path name : StateM σ _).run s
      ¬Faulted answer → ∃ next, catalog.Grants ⟨.lookup name, answer⟩ next ∧
        laws.sound after ∧ held path (laws.content after) = .ok next) ∧
    (∀ request keep mode, let (answer, after) := (append path request keep mode : StateM σ _).run s
      ¬Faulted answer → ∃ next, catalog.Grants ⟨.append request keep mode, answer⟩ next ∧
        laws.sound after ∧ held path (laws.content after) = .ok next) ∧
    (∀ manifests, let (answer, after) := (insert path manifests : StateM σ _).run s
      ¬Faulted answer → ∃ next, catalog.Grants ⟨.insert manifests, answer⟩ next ∧
        laws.sound after ∧ held path (laws.content after) = .ok next) := by
  refine ⟨fun name ↦ ?_, fun request keep mode ↦ ?_, fun manifests ↦ ?_⟩
  · cases hrun : (lookup path name : StateM σ _).run s with
    | mk answer after =>
      intro hfault
      obtain ⟨hafter, next, hnow, happly⟩ := run_onFile_eq laws hsound hheld (.lookup name)
        (congrArg (Prod.map (Except.map CatalogReply.found) id) hrun) hfault
      have hfound : (catalog.lookup name).map CatalogReply.found = answer.map .found ∧
          catalog = next := by
        rw [CatalogCall.apply] at happly
        cases hlookup : catalog.lookup name <;> rw [hlookup] at happly <;>
          exact Prod.mk.inj happly
      have hanswer := CatalogResult.eq_of_map (fun _ _ ↦ CatalogReply.found.inj) hfound.1
      exact ⟨next, ⟨hanswer.symm, hfound.2.symm⟩, hafter, hnow⟩
  · cases hrun : (append path request keep mode : StateM σ _).run s with
    | mk answer after =>
      intro hfault
      obtain ⟨hafter, next, hnow, happly⟩ := run_onFile_eq laws hsound hheld
        (.append request keep mode)
        (congrArg (Prod.map (Except.map CatalogReply.answered) id) hrun) hfault
      rw [CatalogCall.apply] at happly
      refine ⟨next, ?_, hafter, hnow⟩
      change answer = .ok (catalog.append? request keep mode).isSome ∧
        next = (catalog.append? request keep mode).getD catalog
      cases happend : catalog.append? request keep mode with
      | none =>
        rw [happend] at happly
        obtain ⟨hanswer, hnext⟩ := Prod.mk.inj happly
        have hrefused : .ok false = answer :=
          CatalogResult.eq_of_map (fun _ _ ↦ CatalogReply.answered.inj) hanswer
        exact ⟨hrefused.symm, hnext.symm⟩
      | some changed =>
        rw [happend] at happly
        obtain ⟨hanswer, hnext⟩ := Prod.mk.inj happly
        have haccepted : .ok true = answer :=
          CatalogResult.eq_of_map (fun _ _ ↦ CatalogReply.answered.inj) hanswer
        exact ⟨haccepted.symm, hnext.symm⟩
  · cases hrun : (insert path manifests : StateM σ _).run s with
    | mk answer after =>
      intro hfault
      obtain ⟨hafter, next, hnow, happly⟩ := run_onFile_eq laws hsound hheld (.insert manifests)
        (congrArg (Prod.map (Except.map fun _ ↦ CatalogReply.done) id) hrun) hfault
      obtain ⟨hanswer, hnext⟩ := Prod.mk.inj happly
      have hsame : (Except.ok () : Except CatalogError Unit).map (fun _ ↦ CatalogReply.done) =
          answer.map fun _ ↦ .done := hanswer
      have hdone : .ok () = answer := CatalogResult.eq_of_map (fun _ _ _ ↦ rfl) hsame
      exact ⟨next, ⟨hdone.symm, hnext.symm⟩, hafter, hnow⟩

end FileCatalog

/-- A commit of one partition. -/
def crossedStep : Step :=
  .of (Call.granted ⟨"t1", "orders", "/orders", ""⟩ [] .last)
    ((Coordinator.new "orders" (.ofLocation "/orders")).start .empty)
    (.record ⟨5, 0, 1, "orders", "", .ofList ["a"]⟩)

/-- A request of another party for the same partition. -/
def crossingRequest : AppendRequest :=
  ⟨⟨"t1", "orders", "/orders", ""⟩, [⟨"t1", "a", .append, [Uuid.ofNumber 0]⟩]⟩

/-- The other party replaces the chain of the partition between the lookup and the listing of the
commit. -/
def crossedHistory : History :=
  (0, emitted (.pendingPartitions "orders" 0)) :: (crossedStep.transcript.take 2).map (0, ·) ++
    (7, ⟨.append crossingRequest false .append, .ok true⟩) ::
      (crossedStep.transcript.drop 2).map (0, ·)

def crossedTables : Catalog :=
  { Catalog.empty with
    tables := Catalog.empty.tables.insert "orders" ⟨"t1", "orders", "/orders", ""⟩ }

/-- The catalog after requests that it accepts. -/
def Catalog.appending (catalog : Catalog) (request : AppendRequest) (keep : Bool) : Catalog :=
  (catalog.append? request keep .append).getD catalog

theorem Catalog.Serves.appending {catalog : Catalog} {request : AppendRequest}
    (h : catalog.admits request = true) (keep : Bool) :
    catalog.Serves ⟨.append request keep .append, .ok true⟩ (catalog.appending request keep) := by
  refine .appended ?_
  rw [Catalog.appending, Catalog.append?, if_pos h, Option.getD_some]

theorem coordinators_never_refused_crossed : crossedStep.Granted := by
  have hlaunch : Yields ((Coordinator.new "orders" (.ofLocation "/orders")).launch store false)
      [emitted (.pendingPartitions "orders" 0)] (.ok (), crossedStep.before) :=
    yields_replay (Call.granted ⟨"t1", "orders", "/orders", ""⟩ [] .last) _
  have hrun : Run crossedStep.before [crossedStep] crossedStep.after :=
    .snoc .nil (Step.valid_of _ _ _)
  have hsaid : crossedHistory.said 0 =
      [emitted (.pendingPartitions "orders" 0)] ++ [crossedStep].flatMap Step.transcript := by
    rfl
  have hparties (party : Nat) (hparty : (party == 0) = true) :
      Conducted (crossedHistory.said party) := by
    obtain rfl := eq_of_beq hparty
    exact ⟨[], _, _, _, _, _, _, _, hlaunch, hrun, by rw [List.append_nil]; exact hsaid⟩
  have hreaches : Catalog.ReachesFrom crossedTables crossedHistory _ :=
    .exchange 0 (.exchange 0 (.exchange 0 (.exchange 0 (.exchange 0 (.exchange 0 (.exchange 0
      (.exchange 0 (.exchange 7 (.exchange 0 (.exchange 0 (.exchange 0 .start
        (.elsewhere rfl)) (.elsewhere rfl)) (.found "orders"))
        (.appending (by decide +kernel) false)) (.elsewhere rfl)) (.elsewhere rfl))
        (.elsewhere rfl)) (.appending (by decide +kernel) true)) (.inserted _))
        (.elsewhere rfl)) (.elsewhere rfl)) (.elsewhere rfl)
  have hfresh : crossedHistory.Fresh (· == 0) crossedTables := by
    have hdrawn : (crossedHistory.ofParties (· == 0)).drawn = [.last] := by rfl
    refine ⟨by rw [hdrawn]; decide, fun _ _ _ _ ↦ List.not_mem_nil, ?_⟩
    intro front party exchange rest hhistory hparty id hid hmine
    rw [hdrawn, List.mem_singleton] at hmine
    have hothers : ∀ entry ∈ crossedHistory, (entry.1 == 0) = false →
        Uuid.last ∉ entry.2.asked.flatMap PartitionAppend.snapshots := by
      decide +kernel
    have hentry : (party, exchange) ∈ crossedHistory := by
      rw [hhistory]
      exact List.mem_append_right _ List.mem_cons_self
    exact absurd (hmine ▸ hid) (hothers (party, exchange) hentry hparty)
  refine (coordinators_never_refused hreaches hparties hfresh).2 0 rfl _ _ _ _ _ _ _ hlaunch hrun
    ?_ crossedStep List.mem_cons_self
  exact hsaid ▸ List.prefix_rfl

end CommitCoordinator
