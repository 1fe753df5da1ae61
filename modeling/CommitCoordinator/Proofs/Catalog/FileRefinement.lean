import CommitCoordinator.Proofs.Catalog.Calls
import CommitCoordinator.Proofs.Catalog.Encoding
import CommitCoordinator.Proofs.Storage.Hosting
import Mathlib.Data.List.Forall2

/-!
# Catalogs in files refine catalogs in memory

A file that holds the contents of a catalog in memory answers each call as the memory does, and
holds the same contents afterwards, unless a file operation fails. A refused call leaves the bytes
of the file alone.
-/

namespace CommitCoordinator

open Storage

/-! ## Courses of calls -/

/-- What a call does to the state that catalogs are kept in. -/
structure CatalogStep (σ : Type) where
  before : σ
  result : CatalogResult
  after : σ

/-- Whether a file operation failed. -/
def CatalogResult.Faulted (result : CatalogResult) : Prop :=
  ∃ path cause, result = .error (.io path cause)

/-- Whether a call changed nothing because it failed or was answered with a refusal. -/
def CatalogResult.Refused (result : CatalogResult) : Prop :=
  result = .ok (.answered false) ∨ ∃ e, result = .error e

namespace CatalogCall

/-- The steps of calls that are made one after the other. -/
def course {σ : Type} (perform : CatalogCall → StateM σ CatalogResult) (s : σ) :
    List CatalogCall → List (CatalogStep σ)
  | [] => []
  | call :: calls =>
    let (result, after) := (perform call).run s
    ⟨s, result, after⟩ :: course perform after calls

end CatalogCall

namespace FileCatalog

/-- The catalog that a file with some content holds, the empty one if there is no file. -/
def held (path : String) : Option (List UInt8) → Except CatalogError Catalog
  | some content => decode path content
  | none => .ok .empty

variable {σ : Type} [MonadFileSystem (StateM σ)] {path : String} (laws : FileLaws σ path) {s : σ}
  {catalog : Catalog}

/-- Bytes that could be read are decoded. -/
theorem run_read_eq {content : Option (List UInt8)} {after : σ}
    (h : (readIfPresent path : ExceptT FileFault (StateM σ) _).run s = (.ok content, after)) :
    (read path : ExceptT CatalogError (StateM σ) Catalog).run s = (held path content, after) := by
  unfold read
  rw [run_bind_ok (run_adapt h ofFault)]
  cases content <;> rfl

theorem run_read_error {fault : FileFault} {after : σ}
    (h : (readIfPresent path : ExceptT FileFault (StateM σ) _).run s = (.error fault, after)) :
    (read path : ExceptT CatalogError (StateM σ) Catalog).run s =
      (.error (ofFault fault), after) := by
  unfold read
  rw [run_bind_error (run_adapt h ofFault)]

/-- A file that holds a catalog is read as that catalog, or not at all. -/
theorem run_read (hsound : laws.sound s) (hheld : held path (laws.content s) = .ok catalog) :
    ∃ after, laws.sound after ∧ laws.content after = laws.content s ∧
      ((read path : ExceptT _ (StateM σ) _).run s = (.ok catalog, after) ∨
        ∃ fault, (read path : ExceptT _ (StateM σ) _).run s = (.error (ofFault fault), after)) := by
  obtain ⟨after, hafter, hcontent, hrun | ⟨cause, hrun⟩⟩ := laws.run_readIfPresent hsound
  · exact ⟨after, hafter, hcontent, .inl (hheld ▸ run_read_eq hrun)⟩
  · exact ⟨after, hafter, hcontent, .inr ⟨⟨path, cause⟩, run_read_error hrun⟩⟩

/-- A written catalog is what the file holds, unless a file operation fails. -/
theorem run_write (hsound : laws.sound s) (catalog : Catalog) :
    ∃ after, laws.sound after ∧
      ((write path catalog : ExceptT _ (StateM σ) _).run s = (.ok (), after) ∧
          held path (laws.content after) = .ok catalog ∨
        ∃ fault, (write path catalog : ExceptT _ (StateM σ) _).run s =
          (.error (ofFault fault), after)) := by
  obtain ⟨after, hafter, ⟨hrun, hcontent⟩ | ⟨fault, hrun⟩⟩ :=
    laws.run_replaceFile hsound (encode catalog)
  · refine ⟨after, hafter, .inl ⟨run_adapt hrun ofFault, ?_⟩⟩
    rw [hcontent]
    exact decode_encode path catalog
  · exact ⟨after, hafter, .inr ⟨fault, run_adapt hrun ofFault⟩⟩

end FileCatalog

namespace CatalogCall

open FileCatalog

variable {σ : Type} [MonadFileSystem (StateM σ)] {path : String} (laws : FileLaws σ path) {s : σ}
  {catalog : Catalog}

/-- What a call does to a file once the contents are read. -/
theorem run_rewrite {present : σ}
    (hread : (read path : ExceptT CatalogError (StateM σ) Catalog).run s = (.ok catalog, present))
    (call : CatalogCall) :
    (call.rewrite path : ExceptT CatalogError (StateM σ) CatalogReply).run s =
      match call.apply catalog with
      | .error e => (.error e, present)
      | .ok (reply, none) => (.ok reply, present)
      | .ok (reply, some changed) => (do
          write path changed
          return reply : ExceptT CatalogError (StateM σ) CatalogReply).run present := by
  rw [rewrite, run_bind_ok hread]
  cases call.apply catalog with
  | error e => rfl
  | ok outcome =>
    obtain ⟨reply, changed⟩ := outcome
    cases changed <;> rfl

/-- Whatever a call comes to, the promises about the file are kept. -/
theorem sound_onFile (hsound : laws.sound s) (call : CatalogCall) :
    laws.sound ((call.onFile path : StateM σ CatalogResult) s).2 := by
  rw [onFile_eq]
  change laws.sound ((call.rewrite path : ExceptT CatalogError (StateM σ) CatalogReply).run s).2
  obtain ⟨after, hafter, -, hread | ⟨cause, hread⟩⟩ := laws.run_readIfPresent hsound
  · have hrun := FileCatalog.run_read_eq hread
    cases hheld : held path (laws.content s) with
    | error e =>
      rw [hheld] at hrun
      rw [rewrite, run_bind_error hrun]
      exact hafter
    | ok catalog =>
      rw [hheld] at hrun
      rw [run_rewrite hrun]
      cases call.apply catalog with
      | error e => exact hafter
      | ok outcome =>
        obtain ⟨reply, changed⟩ := outcome
        cases changed with
        | none => exact hafter
        | some changed =>
          obtain ⟨written, hwritten, ⟨hwrite, -⟩ | ⟨fault, hwrite⟩⟩ := run_write laws hafter changed
          · dsimp only
            rw [run_bind_ok hwrite]
            exact hwritten
          · dsimp only
            rw [run_bind_error hwrite]
            exact hwritten
  · rw [rewrite, run_bind_error (FileCatalog.run_read_error hread)]
    exact hafter

/-- A call on the file answers as the call in memory and keeps the contents together. -/
theorem run_onFile (hsound : laws.sound s) (hheld : held path (laws.content s) = .ok catalog)
    (call : CatalogCall) {result : CatalogResult} {after : σ}
    (hrun : (call.onFile path : StateM σ CatalogResult).run s = (result, after))
    (hfault : ¬result.Faulted) :
    ∃ changed, (call.inMemory : StateM Catalog CatalogResult).run catalog = (result, changed) ∧
      laws.sound after ∧ held path (laws.content after) = .ok changed ∧
      (result.Refused → laws.content after = laws.content s) := by
  change ∃ changed, (call.inMemory : StateM Catalog CatalogResult) catalog = (result, changed) ∧ _
  rw [onFile_eq] at hrun
  change (call.rewrite path : ExceptT CatalogError (StateM σ) CatalogReply).run s = _ at hrun
  obtain ⟨present, hpresent, hsame, hread | ⟨fault, hread⟩⟩ := run_read laws hsound hheld
  · rw [run_rewrite hread] at hrun
    rw [inMemory_eq]
    have houtcome := outcome_apply call catalog
    generalize call.apply catalog = outcome at hrun houtcome ⊢
    cases houtcome with
    | taken name =>
      cases hrun
      exact ⟨catalog, rfl, hpresent, hsame ▸ hheld, fun _ ↦ hsame⟩
    | unknown name =>
      cases hrun
      exact ⟨catalog, rfl, hpresent, hsame ▸ hheld, fun _ ↦ hsame⟩
    | kept reply =>
      cases hrun
      exact ⟨catalog, rfl, hpresent, hsame ▸ hheld, fun _ ↦ hsame⟩
    | changed changed hreply =>
      dsimp only at hrun
      obtain ⟨written, hwritten, ⟨hwrite, hnow⟩ | ⟨fault, hwrite⟩⟩ :=
        run_write laws hpresent changed
      · rw [run_bind_ok hwrite] at hrun
        cases hrun
        refine ⟨changed, rfl, hwritten, hnow, ?_⟩
        rintro (hrefused | ⟨e, he⟩)
        · exact absurd (Except.ok.inj hrefused) hreply
        · cases he
      · rw [run_bind_error hwrite] at hrun
        cases hrun
        exact absurd ⟨_, _, rfl⟩ hfault
  · rw [rewrite, run_bind_error hread] at hrun
    cases hrun
    exact absurd ⟨_, _, rfl⟩ hfault

/-- A call on the file and the same call in memory: both answer the same, the file holds the
contents in memory afterwards, and a refusal leaves the bytes of the file alone. -/
structure Matches (file : CatalogStep σ) (memory : CatalogStep Catalog) : Prop where
  result : file.result = memory.result
  contents : held path (laws.content file.after) = .ok memory.after
  untouched : file.result.Refused → laws.content file.after = laws.content file.before

/-- Calls on the file match the calls in memory, one by one. -/
theorem course_onFile (hsound : laws.sound s) (hheld : held path (laws.content s) = .ok catalog)
    (calls : List CatalogCall)
    (hfault : ∀ step ∈ course (onFile path) s calls, ¬step.result.Faulted) :
    List.Forall₂ (Matches laws) (course (onFile path) s calls)
      (course inMemory catalog calls) := by
  induction calls generalizing s catalog with
  | nil => exact .nil
  | cons call calls ih =>
    cases hrun : (call.onFile path : StateM σ CatalogResult).run s with
    | mk result after =>
      have hcourse : course (onFile path) s (call :: calls) =
          ⟨s, result, after⟩ :: course (onFile path) after calls := by
        rw [course, hrun]
      rw [hcourse] at hfault ⊢
      obtain ⟨changed, hmemory, hafter, hnow, hrefused⟩ :=
        run_onFile laws hsound hheld call hrun (hfault _ List.mem_cons_self)
      have hcatalog : course inMemory catalog (call :: calls) =
          ⟨catalog, result, changed⟩ :: course inMemory changed calls := by
        rw [course, hmemory]
      rw [hcatalog]
      refine .cons ⟨rfl, hnow, hrefused⟩ ?_
      exact ih hafter hnow fun step hstep ↦ hfault step (List.mem_cons_of_mem _ hstep)

end CatalogCall

/-! ## Files without faults -/

namespace FileCatalog

variable {machine : Machine} {path : String} {file draft : Route}

theorem run_read_of_hosts (h : machine.files.Hosts path file draft) :
    (read path : ExceptT CatalogError MachineM _).run machine =
      (held path (machine.files.read path).toOption, machine) :=
  run_read_eq h.run_readIfPresent

/-- What cannot be decoded is not a fault of the file. -/
theorem held_ne_io (content : Option (List UInt8)) (faulty : String) (cause : OsError) :
    held path content ≠ .error (.io faulty cause) := by
  intro hfault
  cases content with
  | none => cases hfault
  | some bytes =>
    rw [held, decode] at hfault
    cases hdecode : Json.decodeBytes Catalog.codec bytes <;> rw [hdecode] at hfault <;> cases hfault

/-- The machine after the file has been replaced by one that holds a catalog. -/
def rewritten (machine : Machine) (file draft : Route) (catalog : Catalog) : Machine :=
  { machine with files := machine.files.replaced file draft (.bytes (encode catalog)) }

theorem run_write_of_hosts (h : machine.files.Hosts path file draft) (catalog : Catalog) :
    (write path catalog : ExceptT CatalogError MachineM _).run machine =
      (.ok (), rewritten machine file draft catalog) :=
  run_adapt (h.run_replaceFile (encode catalog)) ofFault

end FileCatalog

namespace CatalogCall

open FileCatalog

/-- A call on a file that the machine hosts does not fail because of the file. -/
theorem not_faulted_of_hosts {machine after : Machine} {path : String}
    {file draft : Route} (h : machine.files.Hosts path file draft) (call : CatalogCall)
    {result : CatalogResult}
    (hrun : (call.onFile path : MachineM CatalogResult).run machine = (result, after)) :
    ¬result.Faulted ∧ after.files.Hosts path file draft := by
  rw [onFile_eq] at hrun
  change (call.rewrite path : ExceptT CatalogError MachineM CatalogReply).run machine = _ at hrun
  have hread := run_read_of_hosts h
  cases hheld : held path (machine.files.read path).toOption with
  | error e =>
    rw [hheld] at hread
    rw [rewrite, run_bind_error hread] at hrun
    cases hrun
    refine ⟨?_, h⟩
    rintro ⟨faulty, cause, he⟩
    cases he
    exact held_ne_io _ faulty cause hheld
  | ok catalog =>
    rw [hheld] at hread
    rw [run_rewrite hread] at hrun
    have houtcome := outcome_apply call catalog
    generalize call.apply catalog = outcome at hrun houtcome
    cases houtcome with
    | taken name =>
      cases hrun
      exact ⟨by simp [CatalogResult.Faulted], h⟩
    | unknown name =>
      cases hrun
      exact ⟨by simp [CatalogResult.Faulted], h⟩
    | kept reply =>
      cases hrun
      exact ⟨by simp [CatalogResult.Faulted], h⟩
    | changed changed hreply =>
      dsimp only at hrun
      rw [run_bind_ok (run_write_of_hosts h changed)] at hrun
      cases hrun
      exact ⟨by simp [CatalogResult.Faulted], h.of_replaced h _⟩

theorem course_not_faulted {machine : Machine} {path : String}
    {file draft : Route} (h : machine.files.Hosts path file draft) (calls : List CatalogCall) :
    ∀ step ∈ course (onFile path) machine calls, ¬step.result.Faulted := by
  induction calls generalizing machine with
  | nil => exact fun _ hstep ↦ nomatch hstep
  | cons call calls ih =>
    cases hrun : (call.onFile path : MachineM CatalogResult).run machine with
    | mk result after =>
      obtain ⟨hfault, hafter⟩ := not_faulted_of_hosts h call hrun
      have hcourse : course (onFile path) machine (call :: calls) =
          ⟨machine, result, after⟩ :: course (onFile path) after calls := by
        rw [course, hrun]
      rw [hcourse]
      intro step hstep
      rcases List.mem_cons.1 hstep with rfl | hstep
      · exact hfault
      · exact ih hafter step hstep

end CatalogCall

/-- Calls on a file that is absent at first answer as the same calls on an empty catalog in memory.
After each of them the file holds the contents in memory, and a refused call leaves its bytes
alone. -/
theorem file_refines_memory {σ : Type} [MonadFileSystem (StateM σ)] {path : String}
    (laws : FileLaws σ path) {s : σ} (hsound : laws.sound s) (habsent : laws.content s = none)
    (calls : List CatalogCall)
    (hfault : ∀ step ∈ CatalogCall.course (CatalogCall.onFile path) s calls,
      ¬step.result.Faulted) :
    List.Forall₂ (CatalogCall.Matches laws) (CatalogCall.course (CatalogCall.onFile path) s calls)
      (CatalogCall.course CatalogCall.inMemory Catalog.empty calls) := by
  have hheld : FileCatalog.held path (laws.content s) = .ok .empty := by
    rw [habsent]
    rfl
  exact CatalogCall.course_onFile laws hsound hheld calls hfault

/-- A table is registered, found, and refused when it comes again; an append to a table that nobody
registered is refused as well. -/
def repeatedCalls : List CatalogCall :=
  [.register ⟨"t", "events", "/warehouse/events", ""⟩, .lookup "events",
    .register ⟨"s", "events", "/warehouse/other", ""⟩,
    .append ⟨⟨"u", "orders", "/warehouse/orders", ""⟩, []⟩ true .append]

theorem file_refines_memory_repeated :
    List.Forall₂ (CatalogCall.Matches (.ofMachine "/catalog.json"))
      (CatalogCall.course (CatalogCall.onFile "/catalog.json") bareMachine repeatedCalls)
      (CatalogCall.course CatalogCall.inMemory Catalog.empty repeatedCalls) := by
  have hosts : bareMachine.files.Hosts "/catalog.json" ["catalog.json"] ["catalog.json.tmp"] :=
    FileTree.hosts_empty (by decide +kernel) (by decide +kernel) (by decide +kernel)
  apply file_refines_memory (.ofMachine "/catalog.json") hosts.free
  · change (bareMachine.files.read "/catalog.json").toOption = none
    rw [FileTree.read, hosts.leads]
    rfl
  · exact CatalogCall.course_not_faulted hosts repeatedCalls

end CommitCoordinator
