import CommitCoordinator.Proofs.Catalog.FileRefinement
import CommitCoordinator.Proofs.Checkpoint.Failing
import CommitCoordinator.Proofs.Storage.Sheltered

/-!
# Calls of catalogs in files that meet a fault

A call of a catalog in a file reads the file and may replace it, and each step of this can fail.
The call fails with it. After a call that failed, later calls are answered as if it had not been
made, as long as the file is sheltered from what failed replacements leave behind.
-/

namespace CommitCoordinator

open Storage FileTree

/-! ## Calls that meet a fault -/

/-- A machine on which no file can be read. -/
structure UnreadableMachine where
  machine : Machine
  cause : OsError

namespace UnreadableMachine

def onMachine {α : Type} (program : MachineM α) : StateM UnreadableMachine α := fun s ↦
  ((program s.machine).1, { s with machine := (program s.machine).2 })

instance : MonadFileSystem (StateM UnreadableMachine) where
  readFile _ := fun s ↦ (.error s.cause, s)
  writeFile path content := onMachine (writeFile path content)
  createDirs path := onMachine (createDirs path)
  rename source target := onMachine (rename source target)
  isFile path := onMachine (isFile path)
  listDir path := onMachine (listDir path)

end UnreadableMachine

section Replacement

variable {σ : Type} [MonadFileSystem (StateM σ)] {path : String} {bytes : List UInt8} {s : σ}

/-- Whether one of the steps fails in which a file is replaced. -/
inductive ReplacementFails (path : String) (bytes : List UInt8) (s : σ) : Prop where
  | create {parent : String} {cause : OsError} (hparent : parent? path = some parent)
      (h : ((createDirs parent : StateM σ _) s).1 = .error cause)
  | write {created : σ} {cause : OsError}
      (hcreate : (createParent path : ExceptT FileFault (StateM σ) _).run s = (.ok (), created))
      (h : ((writeFile (draftPath path) bytes : StateM σ _) created).1 = .error cause)
  | move {created written : σ} {cause : OsError}
      (hcreate : (createParent path : ExceptT FileFault (StateM σ) _).run s = (.ok (), created))
      (hwrite : (writeFile (draftPath path) bytes : StateM σ _) created = (.ok (), written))
      (h : ((rename (draftPath path) path : StateM σ _) written).1 = .error cause)

/-- A replacement fails with the step of it that does. -/
theorem ReplacementFails.error (h : ReplacementFails path bytes s) :
    ∃ fault, ((replaceFile path bytes : ExceptT FileFault (StateM σ) _).run s).1 =
      .error fault := by
  unfold replaceFile
  cases h with
  | @create parent cause hparent h =>
    have hcreate : (createParent path : ExceptT FileFault (StateM σ) _).run s =
        (.error ⟨parent, cause⟩, ((createDirs parent : StateM σ _) s).2) := by
      rw [createParent, hparent]
      exact run_attempt (Prod.ext h rfl) parent
    exact ⟨_, congrArg Prod.fst (run_bind_error hcreate _)⟩
  | @write created cause hcreate h =>
    have hwrite := run_attempt (Prod.ext h rfl) (draftPath path)
    rw [run_bind_ok hcreate]
    exact ⟨_, congrArg Prod.fst (run_bind_error hwrite _)⟩
  | @move created written cause hcreate hwrite h =>
    have hmove := run_attempt (Prod.ext h rfl) path
    rw [run_bind_ok hcreate, run_bind_ok (run_attempt hwrite (draftPath path))]
    exact ⟨_, congrArg Prod.fst hmove⟩

end Replacement

/-- What a call of a catalog in a file may meet. -/
inductive CatalogFault where
  /-- The file cannot be read, for another reason than that there is none. -/
  | read (cause : OsError) (h : cause ≠ .notFound)
  | replace (fault : ReplaceFault)

/-- Runs a program on a machine where it meets a fault. -/
def meeting {α : Type} (fault : Option CatalogFault)
    (program : {σ : Type} → [MonadFileSystem (StateM σ)] → StateM σ α) : MachineM α :=
  fun machine ↦
    match fault with
    | none =>
      let (value, s) := (program : StateM FailingMachine α) ⟨machine, none⟩
      (value, s.machine)
    | some (.read cause _) =>
      let (value, s) := (program : StateM UnreadableMachine α) ⟨machine, cause⟩
      (value, s.machine)
    | some (.replace fault) =>
      let (value, s) := (program : StateM FailingMachine α) ⟨machine, some fault⟩
      (value, s.machine)

/-- A call of a catalog and the fault that it meets. -/
structure CatalogRequest where
  call : CatalogCall
  fault : Option CatalogFault

namespace CatalogRequest

/-- Answers a request from the file at a path. -/
def run (path : String) (request : CatalogRequest) : MachineM CatalogResult :=
  meeting request.fault (request.call.onFile path)

/-- The answers to requests that are made one after the other. -/
def replies (path : String) (machine : Machine) : List CatalogRequest → List CatalogResult
  | [] => []
  | request :: requests =>
    let (result, after) := request.run path machine
    result :: replies path after requests

/-- What comes of reading the file. -/
def reading (path : String) (request : CatalogRequest) (machine : Machine) :
    Except OsError (List UInt8) :=
  (meeting request.fault (readFile path) machine).1

/-- The machine on which the file is replaced. -/
def replacing (request : CatalogRequest) (machine : Machine) : FailingMachine :=
  ⟨machine, match request.fault with
    | some (.replace fault) => some fault
    | _ => none⟩

end CatalogRequest

namespace FileCatalog

/-- The catalog that is found when the file is read. -/
def found (path : String) (reading : Except OsError (List UInt8)) : Except CatalogError Catalog :=
  match ifPresent path reading with
  | .ok content => held path content
  | .error fault => .error (ofFault fault)

end FileCatalog

namespace CatalogRequest

/-- Whether the call of a request finds a catalog and changes it to another one. -/
def Changes (path : String) (request : CatalogRequest) (machine : Machine) (changed : Catalog) :
    Prop :=
  ∃ catalog reply, FileCatalog.found path (request.reading path machine) = .ok catalog ∧
    request.call.apply catalog = .ok (reply, some changed)

/-- Whether one of the steps fails that a request is answered in, because of a fault or because of
what there is on the machine. -/
inductive StepFails (path : String) (request : CatalogRequest) (machine : Machine) : Prop where
  | read {cause : OsError} (h : request.reading path machine = .error cause)
      (hcause : cause ≠ .notFound)
  | decode {bytes : List UInt8} {e : CatalogError} (h : request.reading path machine = .ok bytes)
      (hdecode : FileCatalog.decode path bytes = .error e)
  | replace {changed : Catalog} (h : request.Changes path machine changed)
      (hfails : ReplacementFails path (FileCatalog.encode changed) (request.replacing machine))

end CatalogRequest

/-! ## What a request does to the files -/

namespace CatalogCall

/-- The answer to a call that finds a catalog or fails, if a replacement of the file comes to
something. -/
def concluded (call : CatalogCall) (found : Except CatalogError Catalog)
    (replaced : Catalog → Except FileFault Unit) : CatalogResult :=
  match found with
  | .error e => .error e
  | .ok catalog =>
    match call.apply catalog with
    | .error e => .error e
    | .ok (reply, none) => .ok reply
    | .ok (reply, some changed) =>
      ((replaced changed).mapError FileCatalog.ofFault).map fun _ ↦ reply

/-- The files after a call, and the answer to it. -/
def onTree (path : String) (call : CatalogCall) (fault : Option ReplaceFault) (tree : FileTree) :
    FileTree × CatalogResult :=
  match FileCatalog.found path (tree.read path) with
  | .error e => (tree, .error e)
  | .ok catalog =>
    match call.apply catalog with
    | .error e => (tree, .error e)
    | .ok (reply, none) => (tree, .ok reply)
    | .ok (reply, some changed) =>
      let (after, result) := tree.fileReplaced path (FileCatalog.encode changed) fault
      (after, (result.mapError FileCatalog.ofFault).map fun _ ↦ reply)

theorem onTree_snd (path : String) (call : CatalogCall) (fault : Option ReplaceFault)
    (tree : FileTree) : (call.onTree path fault tree).2 =
      call.concluded (FileCatalog.found path (tree.read path))
        fun changed ↦ (tree.fileReplaced path (FileCatalog.encode changed) fault).2 := by
  unfold onTree concluded
  cases FileCatalog.found path (tree.read path) with
  | error e => rfl
  | ok catalog =>
    dsimp only
    cases call.apply catalog with
    | error e => rfl
    | ok outcome =>
      obtain ⟨reply, changed⟩ := outcome
      cases changed <;> rfl

variable {σ : Type} [MonadFileSystem (StateM σ)] {path : String} {s after : σ}

/-- A read finds the catalog that the bytes of the file hold. -/
theorem run_read_of_readFile {reading : Except OsError (List UInt8)}
    (h : (readFile path : StateM σ _) s = (reading, after)) :
    (FileCatalog.read path : ExceptT CatalogError (StateM σ) Catalog).run s =
      (FileCatalog.found path reading, after) := by
  have hread := run_readIfPresent_eq h
  unfold FileCatalog.found
  generalize ifPresent path reading = content at hread
  cases content with
  | ok content => exact FileCatalog.run_read_eq hread
  | error fault => exact FileCatalog.run_read_error hread

theorem onFile_of_failingMachine (path : String) (call : CatalogCall) (machine : Machine)
    (fault : Option ReplaceFault) :
    (call.onFile path : StateM FailingMachine CatalogResult) ⟨machine, fault⟩ =
      ((call.onTree path fault machine.files).2,
        ⟨{ machine with files := (call.onTree path fault machine.files).1 }, fault⟩) := by
  let s : FailingMachine := ⟨machine, fault⟩
  have hread := run_read_of_readFile
    (show (readFile path : StateM FailingMachine _) s = (machine.files.read path, s) from rfl)
  rw [onFile_eq, onTree]
  change (call.rewrite path : ExceptT CatalogError (StateM FailingMachine) CatalogReply).run s = _
  cases hfound : FileCatalog.found path (machine.files.read path) with
  | error e =>
    rw [hfound] at hread
    rw [rewrite, run_bind_error hread]
  | ok catalog =>
    rw [hfound] at hread
    rw [run_rewrite hread]
    dsimp only
    cases call.apply catalog with
    | error e => rfl
    | ok outcome =>
      obtain ⟨reply, changed⟩ := outcome
      cases changed with
      | none => rfl
      | some changed =>
        have hreplace := performs_replaceFile path (FileCatalog.encode changed) fault machine
        have hwrite := run_adapt hreplace FileCatalog.ofFault
        dsimp only at hwrite ⊢
        cases hfile : machine.files.fileReplaced path (FileCatalog.encode changed) fault with
        | mk after result =>
          rw [hfile] at hwrite
          cases result with
          | ok => exact run_bind_ok hwrite _
          | error cause => exact run_bind_error hwrite _

/-- A file with an impossible path cannot be read. -/
theorem usable_of_found {tree : FileTree} {catalog : Catalog}
    (h : FileCatalog.found path (tree.read path) = .ok catalog) : path = "" ∨ Usable path := by
  by_cases hpath : path = ""
  · exact .inl hpath
  have hempty : ¬path.isEmpty := fun hempty ↦ hpath (String.isEmpty_iff.1 hempty)
  refine .inr ⟨fun hnul ↦ ?_, hempty, fun hlength ↦ ?_⟩
  · rw [FileTree.read, resolve, if_pos hnul] at h
    cases h
  · by_cases hnul : path.toList.contains '\x00'
    · rw [FileTree.read, resolve, if_pos hnul] at h
      cases h
    · rw [FileTree.read, resolve, if_neg hnul, if_neg hempty, if_pos hlength] at h
      cases h

/-- Trees that cannot be told apart by the file of a catalog answer a call alike, and they still
cannot be told apart after it. -/
theorem onTree_of_interchangeable {tree other : FileTree} (h : Interchangeable path tree other)
    (call : CatalogCall) (fault : Option ReplaceFault) :
    (call.onTree path fault tree).2 = (call.onTree path fault other).2 ∧
      Interchangeable path (call.onTree path fault tree).1 (call.onTree path fault other).1 := by
  rw [onTree, onTree, h.read_eq]
  cases FileCatalog.found path (other.read path) with
  | error e => exact ⟨rfl, h⟩
  | ok catalog =>
    dsimp only
    cases call.apply catalog with
    | error e => exact ⟨rfl, h⟩
    | ok outcome =>
      obtain ⟨reply, changed⟩ := outcome
      cases changed with
      | none => exact ⟨rfl, h⟩
      | some changed =>
        obtain ⟨hresult, hafter⟩ := h.fileReplaced (FileCatalog.encode changed) fault
        exact ⟨congrArg (fun result ↦ (result.mapError FileCatalog.ofFault).map fun _ ↦ reply)
          hresult, hafter⟩

/-- A call on a sheltered file that fails leaves a tree that cannot be told apart from the one
before. -/
theorem onTree_of_sheltered {tree : FileTree} (h : tree.Sheltered path) {call : CatalogCall}
    {fault : Option ReplaceFault} {e : CatalogError}
    (herror : (call.onTree path fault tree).2 = .error e) :
    Interchangeable path tree (call.onTree path fault tree).1 := by
  rw [onTree] at herror ⊢
  cases hfound : FileCatalog.found path (tree.read path) with
  | error e => exact .alike (.refl tree)
  | ok catalog =>
    rw [hfound] at herror
    dsimp only at herror ⊢
    cases happly : call.apply catalog with
    | error e => exact .alike (.refl tree)
    | ok outcome =>
      rw [happly] at herror
      obtain ⟨reply, changed⟩ := outcome
      cases changed with
      | none => exact .alike (.refl tree)
      | some changed =>
        dsimp only at herror ⊢
        refine h.interchangeable (usable_of_found hfound) fun hok ↦ ?_
        rw [hok] at herror
        cases herror

end CatalogCall

namespace CatalogRequest

variable {path : String} {request : CatalogRequest} {machine machine' : Machine}

/-- The files after a request, and the answer to it. -/
def onTree (path : String) (request : CatalogRequest) (tree : FileTree) :
    FileTree × CatalogResult :=
  match request.fault with
  | none => request.call.onTree path none tree
  | some (.read cause _) => (tree, .error (.io path cause))
  | some (.replace fault) => request.call.onTree path (some fault) tree

theorem run_eq (path : String) (request : CatalogRequest) (machine : Machine) :
    request.run path machine = ((request.onTree path machine.files).2,
      { machine with files := (request.onTree path machine.files).1 }) := by
  obtain ⟨call, fault⟩ := request
  rcases fault with _ | ⟨cause, hcause⟩ | fault
  · dsimp only [run, meeting]
    rw [CatalogCall.onFile_of_failingMachine]
    rfl
  · let s : UnreadableMachine := ⟨machine, cause⟩
    have hfound : FileCatalog.found path (.error cause) = .error (.io path cause) := by
      cases cause <;> first | rfl | exact absurd rfl hcause
    have hread := CatalogCall.run_read_of_readFile
      (show (readFile path : StateM UnreadableMachine _) s = (.error cause, s) from rfl)
    rw [hfound] at hread
    have hrun : (call.onFile path : StateM UnreadableMachine CatalogResult) s =
        (.error (.io path cause), s) := by
      rw [CatalogCall.onFile_eq, CatalogCall.rewrite]
      exact run_bind_error hread _
    dsimp only [run, meeting]
    rw [hrun]
    rfl
  · dsimp only [run, meeting]
    rw [CatalogCall.onFile_of_failingMachine]
    rfl

/-- Requests are answered alike on machines whose files cannot be told apart. -/
theorem run_of_interchangeable (h : Interchangeable path machine.files machine'.files)
    (request : CatalogRequest) :
    (request.run path machine).1 = (request.run path machine').1 ∧
      Interchangeable path (request.run path machine).2.files
        (request.run path machine').2.files := by
  rw [run_eq, run_eq]
  obtain ⟨call, fault⟩ := request
  rcases fault with _ | ⟨cause, hcause⟩ | fault
  · exact CatalogCall.onTree_of_interchangeable h call none
  · exact ⟨rfl, h⟩
  · exact CatalogCall.onTree_of_interchangeable h call (some fault)

theorem replies_of_interchangeable (h : Interchangeable path machine.files machine'.files)
    (requests : List CatalogRequest) :
    replies path machine requests = replies path machine' requests := by
  induction requests generalizing machine machine' with
  | nil => rfl
  | cons request requests ih =>
    obtain ⟨hresult, hafter⟩ := run_of_interchangeable h request
    rw [replies, replies]
    exact congrArg₂ List.cons hresult (ih hafter)

/-- A request that fails leaves files that cannot be told apart from those before. -/
theorem interchangeable_of_error (h : machine.files.Sheltered path) {e : CatalogError}
    {after : Machine} (hrun : request.run path machine = (.error e, after)) :
    Interchangeable path machine.files after.files := by
  rw [run_eq] at hrun
  obtain ⟨call, fault⟩ := request
  obtain ⟨herror, rfl⟩ := Prod.mk.inj hrun
  rcases fault with _ | ⟨cause, hcause⟩ | fault
  · exact CatalogCall.onTree_of_sheltered h herror
  · exact .alike (.refl _)
  · exact CatalogCall.onTree_of_sheltered h herror

/-! ### Steps that fail -/

theorem found_of_error {cause : OsError} (hcause : cause ≠ .notFound) :
    FileCatalog.found path (.error cause) = .error (.io path cause) := by
  cases cause <;> first | rfl | exact absurd rfl hcause

/-- What a request comes to, whatever fault it meets. -/
theorem run_fst (path : String) (request : CatalogRequest) (machine : Machine) :
    (request.run path machine).1 =
      request.call.concluded (FileCatalog.found path (request.reading path machine))
        fun changed ↦ ((replaceFile path (FileCatalog.encode changed) :
          ExceptT FileFault (StateM FailingMachine) _).run (request.replacing machine)).1 := by
  have hreplace (fault : Option ReplaceFault) : (fun changed ↦ ((replaceFile path
      (FileCatalog.encode changed) : ExceptT FileFault (StateM FailingMachine) _).run
        ⟨machine, fault⟩).1) =
      fun changed ↦ (machine.files.fileReplaced path (FileCatalog.encode changed) fault).2 :=
    funext fun changed ↦ congrArg Prod.fst (performs_replaceFile path _ fault machine)
  obtain ⟨call, fault⟩ := request
  rw [run_eq]
  rcases fault with _ | ⟨cause, hcause⟩ | fault
  · exact (call.onTree_snd path none machine.files).trans (congrArg _ (hreplace none).symm)
  · have hfound : FileCatalog.found path
        (reading path ⟨call, some (.read cause hcause)⟩ machine) = .error (.io path cause) :=
      found_of_error hcause
    rw [hfound]
    rfl
  · exact (call.onTree_snd path fault machine.files).trans (congrArg _ (hreplace fault).symm)

/-- A request fails with the step of it that does. -/
theorem error_of_stepFails (h : request.StepFails path machine) :
    ∃ e, (request.run path machine).1 = .error e := by
  rw [run_fst]
  cases h with
  | read h hcause =>
    rw [h, found_of_error hcause]
    exact ⟨_, rfl⟩
  | @decode bytes e h hdecode =>
    have hfound : FileCatalog.found path (.ok bytes) = .error e := hdecode
    rw [h, hfound]
    exact ⟨_, rfl⟩
  | replace h hfails =>
    obtain ⟨catalog, reply, hfound, happly⟩ := h
    obtain ⟨fault, hfault⟩ := hfails.error
    rw [hfound]
    simp only [CatalogCall.concluded, happly, hfault]
    exact ⟨_, rfl⟩

end CatalogRequest

end CommitCoordinator
