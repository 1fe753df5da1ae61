import CommitCoordinator.Proofs.Catalog.Faults
import CommitCoordinator.Proofs.Checkpoint.Cells
import CommitCoordinator.Proofs.Coordinator.Run
import CommitCoordinator.Proofs.Dialogue.Along

/-!
# Failed calls of catalogs in files

A failed call of a catalog in a file has changed nothing that later calls could notice, as long as
the file is sheltered from what failed replacements leave behind. So a coordinator may well commit
again what it could not append.
-/

namespace CommitCoordinator

open Storage FileTree Dialogue

/-- Whether the surroundings of a coordinator with its catalog in the file at a path give an answer
and change the machine like this. Each call of the catalog may meet a fault, and other calls leave
the files alone. -/
def Filed (path : String) (machine : Machine) : Exchange → Machine → Prop
  | ⟨.lookup name, answer⟩, after =>
    ∃ fault, meeting fault ((FileCatalog.client path).lookup name) machine = (answer, after)
  | ⟨.append request keep mode, answer⟩, after =>
    ∃ fault, meeting fault ((FileCatalog.client path).append request keep mode) machine =
      (answer, after)
  | ⟨.insert manifests, answer⟩, after =>
    ∃ fault, meeting fault ((FileCatalog.client path).insert manifests) machine = (answer, after)
  | _, after => after.files = machine.files

/-- Whether an exchange leaves the files alone. -/
def Exchange.KeepsFiles (path : String) (exchange : Exchange) : Prop :=
  ∀ machine after, Filed path machine exchange after → after.files = machine.files

section Commits

variable {path : String} {machine after : Machine}

theorem files_of_along {transcript : List Exchange}
    (h : Along (Filed path) machine transcript after)
    (hkeeps : ∀ exchange ∈ transcript, exchange.KeepsFiles path) :
    after.files = machine.files := by
  induction transcript generalizing machine with
  | nil => exact congrArg Machine.files h
  | cons exchange rest ih =>
    obtain ⟨between, hstep, hrest⟩ := h
    have hfiles := hkeeps exchange List.mem_cons_self machine between hstep
    exact (ih hrest fun other hother ↦ hkeeps other (List.mem_cons_of_mem _ hother)).trans hfiles

theorem run_lookup (path name : String) (fault : Option CatalogFault) (machine : Machine) :
    CatalogRequest.run path ⟨.lookup name, fault⟩ machine =
      ((meeting fault ((FileCatalog.client path).lookup name) machine).1.map .found,
        (meeting fault ((FileCatalog.client path).lookup name) machine).2) := by
  rcases fault with _ | ⟨cause, hcause⟩ | fault <;> rfl

theorem run_append (path : String) (request : AppendRequest) (keep : Bool) (mode : CommitMode)
    (fault : Option CatalogFault) (machine : Machine) :
    CatalogRequest.run path ⟨.append request keep mode, fault⟩ machine =
      ((meeting fault ((FileCatalog.client path).append request keep mode) machine).1.map .answered,
        (meeting fault ((FileCatalog.client path).append request keep mode) machine).2) := by
  rcases fault with _ | ⟨cause, hcause⟩ | fault <;> rfl

/-- A lookup only reads the file. -/
theorem onTree_lookup_fst (path name : String) (fault : Option CatalogFault) (tree : FileTree) :
    (CatalogRequest.onTree path ⟨.lookup name, fault⟩ tree).1 = tree := by
  have hcall (fault : Option ReplaceFault) :
      ((CatalogCall.lookup name).onTree path fault tree).1 = tree := by
    unfold CatalogCall.onTree
    cases FileCatalog.found path (tree.read path) with
    | error e => rfl
    | ok catalog =>
      dsimp only [CatalogCall.apply]
      cases catalog.lookup name <;> rfl
  rcases fault with _ | ⟨cause, hcause⟩ | fault
  · exact hcall none
  · rfl
  · exact hcall (some fault)

theorem keepsFiles_lookup (name : String) (answer : Except CatalogError Table) :
    Exchange.KeepsFiles path ⟨.lookup name, answer⟩ := by
  rintro machine after ⟨fault, hrun⟩
  have hlookup := run_lookup path name fault machine
  rw [hrun, CatalogRequest.run_eq, onTree_lookup_fst] at hlookup
  exact congrArg (·.2.files) hlookup.symm

theorem keepsFiles_finding {options : SinkOptions} {findings : List Finding} {exchange : Exchange}
    (h : exchange ∈ findings.flatMap (·.exchanges options)) : exchange.KeepsFiles path := by
  obtain ⟨finding, -, hmem⟩ := List.mem_flatMap.1 h
  rcases List.mem_pair.1 hmem with rfl | rfl <;> exact fun _ _ hfiled ↦ hfiled

theorem keepsFiles_emit (event : MetricEvent) : (emitted event).KeepsFiles path := by
  unfold emitted
  exact fun _ _ hfiled ↦ hfiled

theorem keepsFiles_emitted {events : List MetricEvent} {exchange : Exchange}
    (h : exchange ∈ events.map emitted) : exchange.KeepsFiles path := by
  obtain ⟨event, -, rfl⟩ := List.mem_map.1 h
  exact keepsFiles_emit event

/-- An attempt that could not look the table up leaves the files alone. -/
theorem files_of_lookupFailed {options : SinkOptions} {report : Report}
    {partitions : List String} {exchanges : List Exchange} {cause : CatalogError}
    (hcourse : Attempt.Course options report partitions exchanges (.lookupFailed cause))
    (h : Along (Filed path) machine exchanges after) : after.files = machine.files := by
  generalize hattempt : Attempt.lookupFailed cause = attempt at hcourse
  cases hcourse with
  | lookupFailed cause =>
    apply files_of_along h
    simpa using keepsFiles_lookup report.table (.error cause)
  | listingFailed => cases hattempt
  | sent table findings time hpartitions hphases => subst hattempt; cases hphases

/-- Files before and after an attempt that could not append cannot be told apart. -/
theorem interchangeable_of_appendFailed {options : SinkOptions} {report : Report}
    {partitions : List String} {exchanges : List Exchange} {cause : CatalogError}
    (hsheltered : machine.files.Sheltered path)
    (hcourse : Attempt.Course options report partitions exchanges (.appendFailed cause))
    (h : Along (Filed path) machine exchanges after) :
    Interchangeable path machine.files after.files := by
  generalize hattempt : Attempt.appendFailed cause = attempt at hcourse
  cases hcourse with
  | lookupFailed => cases hattempt
  | listingFailed => cases hattempt
  | @sent table findings time phases attempt hpartitions hphases =>
    subst hattempt
    cases hphases
    rw [List.append_cons, ← List.cons_append, along_append] at h
    obtain ⟨present, hfront, happend⟩ := h
    have hsame : present.files = machine.files := by
      apply files_of_along hfront
      intro exchange hmem
      rcases List.mem_cons.1 hmem with rfl | hmem
      · exact keepsFiles_lookup report.table (.ok table)
      rcases List.mem_append.1 hmem with hmem | hmem
      · exact keepsFiles_finding hmem
      · rw [List.mem_singleton.1 hmem]
        exact fun _ _ hfiled ↦ hfiled
    obtain ⟨_, ⟨fault, hrun⟩, rfl⟩ := happend
    have hresult := run_append path (payloadOf options report.fileMark table findings time).request
      true .append fault present
    rw [hrun] at hresult
    exact hsame ▸ CatalogRequest.interchangeable_of_error (hsame ▸ hsheltered) hresult

theorem ne_of_receive_error {before : Coordinator} {report : Report} {refusal : CommitError}
    (h : before.receive report = .error refusal) (cause : CatalogError) :
    refusal ≠ .catalog cause ∧ refusal ≠ .append cause := by
  unfold Coordinator.receive at h
  split at h
  · cases h
    exact ⟨nofun, nofun⟩
  · split at h
    · cases h
      exact ⟨nofun, nofun⟩
    · cases h

/-- A commit that failed because of a lookup or an append has not appended anything, and everything
is pending as it was when the report had come in. -/
theorem Step.Valid.interchangeable {step : Step} {report : Report} (h : step.Valid)
    (hevent : step.event = .record report) (hsheltered : machine.files.Sheltered path)
    (halong : Along (Filed path) machine step.transcript after) {cause : CatalogError}
    (hresult : step.result = .error (.catalog cause) ∨ step.result = .error (.append cause)) :
    step.before.receive report = .ok (step.after, true) ∧
      Interchangeable path machine.files after.files := by
  have hprocessed := h.processed hevent
  obtain ⟨before, event, transcript, result, current⟩ := step
  dsimp only at hprocessed halong hresult ⊢
  cases hprocessed with
  | refused hreceive =>
    obtain ⟨hcatalog, happend⟩ := ne_of_receive_error hreceive cause
    rcases hresult with hresult | hresult
    · exact absurd (Except.error.inj hresult) hcatalog
    · exact absurd (Except.error.inj hresult) happend
  | awaited => rcases hresult with hresult | hresult <;> cases hresult
  | idle => rcases hresult with hresult | hresult <;> cases hresult
  | @attempted received exchanges attempt hreceive hpending hcourse =>
    obtain ⟨begun, hquorum, halong⟩ := halong
    obtain ⟨ended, hexchanges, hevents⟩ := along_append.1 halong
    have hbegun : begun.files = machine.files := keepsFiles_emit _ _ _ hquorum
    have hended : after.files = ended.files :=
      files_of_along hevents fun exchange ↦ keepsFiles_emitted
    rw [← hbegun] at hsheltered
    rw [← hbegun, hended]
    have hattempt : attempt = .lookupFailed cause ∨ attempt = .appendFailed cause := by
      cases attempt <;> simp_all [Coordinator.resultOf]
    rcases hattempt with rfl | rfl
    · rw [files_of_lookupFailed hcourse hexchanges]
      exact ⟨hreceive, .alike (.refl _)⟩
    · exact ⟨hreceive, interchangeable_of_appendFailed hsheltered hcourse hexchanges⟩

/-- Failed calls of a catalog in a sheltered file go unnoticed: a call fails with each of its steps;
the file of a catalog holds the same bytes after a failed call, and all calls are answered as
if it had not been made. In particular a commit that could not look the table up or append its
snapshots has not appended any of them, and its partitions are pending again. -/
theorem failed_calls_change_nothing {path : String} {machine : Machine}
    (h : machine.files.Sheltered path) :
    (∀ request : CatalogRequest,
      (request.StepFails path machine → ∃ e, (request.run path machine).1 = .error e) ∧
      ∀ e after, request.run path machine = (.error e, after) →
        after.files.read path = machine.files.read path ∧
        ∀ requests, CatalogRequest.replies path after requests =
          CatalogRequest.replies path machine requests) ∧
    ∀ (step : Step) (report : Report) (after : Machine), step.Valid →
      step.event = .record report → Along (Filed path) machine step.transcript after →
        ∀ cause,
          step.result = .error (.catalog cause) ∨ step.result = .error (.append cause) →
            step.before.receive report = .ok (step.after, true) ∧
            after.files.read path = machine.files.read path ∧
            ∀ requests, CatalogRequest.replies path after requests =
              CatalogRequest.replies path machine requests := by
  refine ⟨fun request ↦ ⟨CatalogRequest.error_of_stepFails, fun e after hrun ↦ ?_⟩, ?_⟩
  · have hsame := CatalogRequest.interchangeable_of_error h hrun
    exact ⟨hsame.read_eq.symm, fun requests ↦
      (CatalogRequest.replies_of_interchangeable hsame requests).symm⟩
  · intro step report after hvalid hevent halong cause hresult
    obtain ⟨hreceive, hsame⟩ := hvalid.interchangeable hevent h halong hresult
    exact ⟨hreceive, hsame.read_eq.symm, fun requests ↦
      (CatalogRequest.replies_of_interchangeable hsame requests).symm⟩

end Commits

/-- A table to be registered. -/
def tableOfEvents : Table :=
  ⟨"t", "events", "/warehouse/events", ""⟩

def registerEvents (fault : Option CatalogFault) : CatalogRequest :=
  ⟨.register tableOfEvents, fault⟩

def lookupEvents : CatalogRequest :=
  ⟨.lookup "events", none⟩

/-- The catalog with the table only. -/
def eventsCatalog : Catalog :=
  { Catalog.empty with tables := Catalog.empty.tables.insert "events" tableOfEvents }

/-- The disk is full once so many bytes of the draft have been written. -/
def diskFull (length : Nat) : CatalogFault :=
  .replace (.write (some length) (.other "No space left on device"))

theorem apply_register_empty :
    (CatalogCall.register tableOfEvents).apply .empty = .ok (.done, some eventsCatalog) := rfl

theorem lookup_eventsCatalog : eventsCatalog.lookup "events" = .ok tableOfEvents := by
  decide

theorem found_absent {path : String} {tree : FileTree} (h : tree.read path = .error .notFound) :
    FileCatalog.found path (tree.read path) = .ok .empty := by
  rw [h]
  rfl

/-- A report of the only writer about the table. -/
def reportOfEvents : Report :=
  ⟨5, 0, 1, "events", "t0", .ofList ["dt=1"]⟩

/-- The step of that report when the catalog does not know the table. -/
def unknownStep : Step :=
  .of (Call.unknown [] .last) ((Coordinator.new "events" (.ofLocation "/events")).start .empty)
    (.record reportOfEvents)

/-- A lookup that meets no fault is answered by the catalog in the file. -/
theorem meeting_lookup {path : String} {machine : Machine} {catalog : Catalog}
    (h : FileCatalog.found path (machine.files.read path) = .ok catalog) (name : String) :
    meeting none ((FileCatalog.client path).lookup name) machine =
      (catalog.lookup name, machine) := by
  let s : FailingMachine := ⟨machine, none⟩
  have hread := CatalogCall.run_read_of_readFile
    (show (readFile path : StateM FailingMachine _) s = (machine.files.read path, s) from rfl)
  rw [h] at hread
  have hlookup : (FileCatalog.lookup path name : StateM FailingMachine _) s =
      (catalog.lookup name, s) := run_bind_ok hread _
  dsimp only [meeting, FileCatalog.client]
  rw [hlookup]

theorem lookup_absent {path : String} {machine : Machine}
    (h : machine.files.read path = .error .notFound) (name : String) :
    meeting none ((FileCatalog.client path).lookup name) machine =
      (.error (.tableNotFound name), machine) :=
  meeting_lookup (found_absent h) name

theorem along_unknownStep {path : String} {machine : Machine}
    (h : machine.files.read path = .error .notFound) :
    Along (Filed path) machine unknownStep.transcript machine :=
  ⟨machine, rfl, machine, ⟨none, lookup_absent h "events"⟩, machine, rfl, rfl⟩

/-- A draft that cannot be written fails a change of a catalog in a file. -/
theorem stepFails_of_hosts {path : String} {file draft : Storage.Route} {machine : Machine}
    (h : machine.files.Hosts path file draft) {request : CatalogRequest} {changed : Catalog}
    (hchanges : request.Changes path machine changed) {length : Option Nat} {cause : OsError}
    (hfault : request.fault = some (.replace (.write length cause))) :
    request.StepFails path machine := by
  obtain ⟨call, fault⟩ := request
  subst hfault
  let s : FailingMachine := ⟨machine, some (.write length cause)⟩
  have hcreate : (createParent path : ExceptT FileFault (StateM FailingMachine) _).run s =
      (.ok (), s) := by
    have hparent : machine.files.parentCreated path s.fault = (machine.files, .ok ()) :=
      parentCreated_of_isDirAt h.parent
    have hrun := performs_createParent path s.fault machine
    dsimp only at hrun
    rw [hparent] at hrun
    exact hrun
  have hwrite : ((writeFile (draftPath path) (FileCatalog.encode changed) :
      StateM FailingMachine _) s).1 = .error cause := by
    cases length <;> rfl
  exact .replace hchanges (.write hcreate hwrite)

/-- A machine with some files. -/
def machineWith (files : FileTree) : Machine :=
  { bareMachine with files := files }

/-- A tree with a catalog that holds the table only. -/
def eventsFiles : FileTree :=
  (FileTree.empty []).insertNode ["catalog.json"]
    (.file (.bytes (FileCatalog.encode eventsCatalog)))

theorem hosts_eventsFiles :
    eventsFiles.Hosts "/catalog.json" ["catalog.json"] ["catalog.json.tmp"] := by
  refine hosts_of_inRoot (linkFree_empty.insertNode _ (by simp)) (by decide) (by decide)
    (by decide) ?_ ?_
  · rw [node?_insertNode_self _ (List.cons_ne_nil _ _)]
    exact nofun
  · rw [node?_insertNode_of_ne _ (by decide)]
    exact node?_empty_ne_dir _

theorem found_eventsFiles :
    FileCatalog.found "/catalog.json" (eventsFiles.read "/catalog.json") =
      .ok eventsCatalog := by
  have hread : eventsFiles.read "/catalog.json" =
      .ok (FileCatalog.encode eventsCatalog) := by
    rw [FileTree.read, hosts_eventsFiles.leads, placeAt, eventsFiles,
      node?_insertNode_self _ (List.cons_ne_nil _ _)]
    rfl
  rw [hread]
  exact FileCatalog.decode_encode "/catalog.json" eventsCatalog

/-- The surroundings in which nothing fails but appends. -/
def Call.stuck (table : Table) (cause : CatalogError) : (call : Call) → call.Answer
  | .append _ _ _ => .error cause
  | call => granted table [] .last call

/-- The step of the report when its snapshots cannot be appended. -/
def stuckStep (cause : CatalogError) : Step :=
  .of (Call.stuck tableOfEvents cause)
    ((Coordinator.new "events" (.ofLocation "/events")).start .empty) (.record reportOfEvents)

/-- What the step asks to append. -/
def dayOfEvents : AppendRequest :=
  ⟨tableOfEvents, [⟨"t", "dt=1", .append, [.last]⟩]⟩

def appendDay (fault : Option CatalogFault) : CatalogRequest :=
  ⟨.append dayOfEvents true .append, fault⟩

theorem failed_calls_change_nothing_disk_full :
    (bareMachine.files.Sheltered "/catalog.json" ∧
      unknownStep.result = .error (.catalog (.tableNotFound "events")) ∧
      unknownStep.before.receive reportOfEvents = .ok (unknownStep.after, true) ∧
      ∃ e after, (registerEvents (some (diskFull 1))).run "/catalog.json" bareMachine =
          (.error e, after) ∧
        after.files.read "/catalog.json" = .error .notFound ∧
        CatalogRequest.replies "/catalog.json" after [registerEvents none, lookupEvents] =
          CatalogRequest.replies "/catalog.json" bareMachine
            [registerEvents none, lookupEvents]) ∧
    eventsFiles.Sheltered "/catalog.json" ∧
      (appendDay (some (diskFull 1))).StepFails "/catalog.json" (machineWith eventsFiles) ∧
      ∃ cause after, (stuckStep cause).result = .error (.append cause) ∧
        Along (Filed "/catalog.json") (machineWith eventsFiles) (stuckStep cause).transcript after ∧
        (stuckStep cause).before.receive reportOfEvents = .ok ((stuckStep cause).after, true) ∧
        CatalogRequest.replies "/catalog.json" after [appendDay none, lookupEvents] =
          CatalogRequest.replies "/catalog.json" (machineWith eventsFiles)
            [appendDay none, lookupEvents] := by
  have hosts : bareMachine.files.Hosts "/catalog.json" ["catalog.json"] ["catalog.json.tmp"] :=
    hosts_empty (by decide) (by decide) (by decide)
  have hsheltered : bareMachine.files.Sheltered "/catalog.json" := hosts.sheltered (by decide)
  have hread : bareMachine.files.read "/catalog.json" = .error .notFound := by
    rw [FileTree.read, hosts.leads]
    rfl
  have hthere : (machineWith eventsFiles).files.Sheltered "/catalog.json" :=
    hosts_eventsFiles.sheltered (by decide)
  constructor
  · let request := registerEvents (some (diskFull 1))
    have hfails : request.StepFails "/catalog.json" bareMachine :=
      stepFails_of_hosts hosts ⟨.empty, .done, found_absent hread, apply_register_empty⟩ rfl
    obtain ⟨hrequest, hstep⟩ := failed_calls_change_nothing hsheltered
    obtain ⟨e, herror⟩ := (hrequest request).1 hfails
    obtain ⟨hsame, hlater⟩ := (hrequest request).2 e _ (Prod.ext herror rfl)
    obtain ⟨hreceive, -⟩ := hstep unknownStep reportOfEvents bareMachine (Step.valid_of _ _ _) rfl
      (along_unknownStep hread) (.tableNotFound "events") (.inl rfl)
    exact ⟨hsheltered, rfl, hreceive, e, _, Prod.ext herror rfl, hsame.trans hread, hlater _⟩
  · let request := appendDay (some (diskFull 1))
    have hfails : request.StepFails "/catalog.json" (machineWith eventsFiles) :=
      stepFails_of_hosts hosts_eventsFiles ⟨eventsCatalog, _, found_eventsFiles, rfl⟩ rfl
    obtain ⟨hrequest, hstep⟩ := failed_calls_change_nothing hthere
    obtain ⟨cause, herror⟩ := (hrequest request).1 hfails
    obtain ⟨after, happend⟩ : ∃ after, meeting (some (diskFull 1))
        ((FileCatalog.client "/catalog.json").append dayOfEvents true .append)
        (machineWith eventsFiles) = (.error cause, after) := by
      have hrun := run_append "/catalog.json" dayOfEvents true .append (some (diskFull 1))
        (machineWith eventsFiles)
      refine ⟨_, Prod.ext ?_ rfl⟩
      exact CatalogResult.eq_of_map (fun _ _ ↦ CatalogReply.answered.inj)
        ((congrArg Prod.fst hrun).symm.trans herror)
    have hlookup := @meeting_lookup _ (machineWith eventsFiles) _ found_eventsFiles "events"
    rw [lookup_eventsCatalog] at hlookup
    have halong : Along (Filed "/catalog.json") (machineWith eventsFiles)
        (stuckStep cause).transcript after :=
      ⟨_, rfl, _, ⟨none, hlookup⟩, _, rfl, _, rfl, _, rfl, _, ⟨some (diskFull 1), happend⟩, _, rfl,
        rfl⟩
    obtain ⟨hreceive, -, hlater⟩ := hstep (stuckStep cause) reportOfEvents after
      (Step.valid_of _ _ _) rfl halong cause (.inr rfl)
    exact ⟨hthere, hfails, cause, after, rfl, halong, hreceive, hlater _⟩

/-! ## Files that are not sheltered -/

theorem fileReplaced_of_run {path : String} {bytes : List UInt8} {machine after : Machine}
    {result : Except FileFault Unit}
    (h : (replaceFile path bytes : ExceptT FileFault MachineM _).run machine = (result, after)) :
    machine.files.fileReplaced path bytes none = (after.files, result) := by
  have hreliable := FailingMachine.reliable_replaceFile path bytes machine
  rw [performs_replaceFile path bytes none machine, h] at hreliable
  obtain ⟨hresult, hafter⟩ := Prod.mk.inj hreliable
  exact Prod.ext (congrArg (·.machine.files) hafter) hresult

/-- Where there is no file, a table is registered by writing one. -/
theorem onTree_register_absent {path : String} {tree : FileTree}
    (h : tree.read path = .error .notFound) (fault : Option ReplaceFault) :
    (CatalogCall.register tableOfEvents).onTree path fault tree =
      let (after, result) := tree.fileReplaced path (FileCatalog.encode eventsCatalog) fault
      (after, (result.mapError FileCatalog.ofFault).map fun _ ↦ .done) := by
  unfold CatalogCall.onTree
  rw [found_absent h]
  dsimp only
  rw [apply_register_empty]

theorem replies_lookup_absent {path : String} {machine : Machine}
    (h : machine.files.read path = .error .notFound) :
    CatalogRequest.replies path machine [lookupEvents] = [.error (.tableNotFound "events")] := by
  have hrun : lookupEvents.run path machine = (.error (.tableNotFound "events"), machine) := by
    rw [lookupEvents, run_lookup, lookup_absent h]
    rfl
  exact congrArg (fun outcome ↦ [outcome.1]) hrun

theorem replies_lookup_error {path : String} {machine : Machine} {cause : OsError}
    (h : machine.files.read path = .error cause) (hcause : cause ≠ .notFound) :
    CatalogRequest.replies path machine [lookupEvents] = [.error (.io path cause)] := by
  have hrun : (lookupEvents.run path machine).1 = .error (.io path cause) := by
    rw [CatalogRequest.run_fst]
    change CatalogCall.concluded _ (FileCatalog.found path (machine.files.read path)) _ = _
    rw [h, CatalogRequest.found_of_error hcause]
    rfl
  exact congrArg (fun result ↦ [result]) hrun

theorem replies_register_lookup {path faulty : String} {machine : Machine} {cause cause' : OsError}
    {after : FileTree}
    (h : machine.files.read path = .error .notFound)
    (hreplace : machine.files.fileReplaced path (FileCatalog.encode eventsCatalog) none =
      (after, .error ⟨faulty, cause⟩))
    (hafter : after.read path = .error cause') (hcause : cause' ≠ .notFound) :
    CatalogRequest.replies path machine [registerEvents none, lookupEvents] =
      [.error (.io faulty cause), .error (.io path cause')] := by
  have hregister : (registerEvents none).run path machine =
      (.error (.io faulty cause), { machine with files := after }) := by
    rw [CatalogRequest.run_eq]
    dsimp only [registerEvents, CatalogRequest.onTree]
    rw [onTree_register_absent h, hreplace]
    rfl
  have hlookup := @replies_lookup_error path { machine with files := after } cause' hafter hcause
  unfold CatalogRequest.replies
  rw [hregister]
  exact congrArg _ hlookup

/-! ### A directory that is created halfway -/

/-- A tree with an empty file that is taken for a directory. -/
def fileInTheWay : FileTree :=
  (FileTree.empty []).insertNode ["f"] (.file (.bytes []))

theorem linkFree_fileInTheWay : fileInTheWay.LinkFree :=
  linkFree_empty.insertNode ["f"] (by simp)

/-- The first of the missing directories can be created, and the last one not. -/
theorem createDirsTo_halfway :
    fileInTheWay.createDirsTo "/d/../f" =
      (fileInTheWay.insertNode ["d"] .dir, .error .fileExists) := by
  let made := fileInTheWay.insertNode ["d"] .dir
  have hmade : made.LinkFree := linkFree_fileInTheWay.insertNode ["d"] (by simp)
  have hparent : parent? "/d/../f" = some "/d/.." ∧ parent? "/d/.." = some "/d" := by
    decide
  have hcreate : fileInTheWay.createDir "/d/../f" = .error .notFound ∧
      fileInTheWay.createDir "/d/.." = .error .notFound ∧
      fileInTheWay.createDir "/d" = .ok made := by
    simp (disch := decide) only [createDir, linkFree_fileInTheWay.resolve_eq_stroll]
    exact ⟨rfl, rfl, rfl⟩
  have hthere : made.isDirAt "/d/.." := by
    rw [isDirAt, hmade.resolve_eq_stroll (by decide)]
    rfl
  have hfile : made.createDir "/d/../f" = .error .fileExists ∧ made.isDirAt "/d/../f" = false := by
    simp (disch := decide) only [createDir, isDirAt, hmade.resolve_eq_stroll]
    exact ⟨rfl, rfl⟩
  have hfirst : fileInTheWay.createDirsTo "/d" = (made, .ok ()) := by
    rw [createDirsTo_of_ne (by decide) (by simp [hcreate.2.2]), createLast, hcreate.2.2]
  have habove : fileInTheWay.createDirsTo "/d/.." = (made, .ok ()) := by
    rw [createDirsTo_of_missing hcreate.2.1 hparent.2, hfirst]
    simp only [createLast, createDir_of_isDirAt hthere, hthere, if_true]
  rw [createDirsTo_of_missing hcreate.1 hparent.1, habove]
  simp only [createLast, hfile.1, hfile.2]
  rfl

theorem fileReplaced_halfway (bytes : List UInt8) :
    fileInTheWay.fileReplaced "/d/../f/c.json" bytes none =
      (fileInTheWay.insertNode ["d"] .dir, .error ⟨"/d/../f", .fileExists⟩) := by
  have hparent : parent? "/d/../f/c.json" = some "/d/../f" := by decide
  have hcreated : fileInTheWay.parentCreated "/d/../f/c.json" none =
      (fileInTheWay.insertNode ["d"] .dir, .error ⟨"/d/../f", .fileExists⟩) := by
    rw [parentCreated, hparent]
    dsimp only [createDirsFailing]
    rw [createDirsTo_halfway]
    rfl
  rw [fileReplaced, hcreated]
  rfl

/-! ### A draft that is a link to the file -/

/-- A tree where the draft of a catalog is a link to the catalog. -/
def linkedDraft : FileTree :=
  (FileTree.empty []).insertNode ["c.json.tmp"] (.link "c.json")

theorem resolve_linkedDraft :
    linkedDraft.resolve true "/c.json.tmp" = .ok (.vacant ["c.json"] false) := by
  have hlink : linkedDraft.node? ([] ++ ["c.json.tmp"]) = some (.link "c.json") := by rfl
  have hnone : linkedDraft.node? ([] ++ ["c.json"]) = none := by rfl
  have hparts : pathParts "c.json" ++ [] = ["c.json"] := by decide
  have hstart : pathParts "/c.json.tmp" = ["", "c.json.tmp"] := by decide
  have hroot : linkedDraft.start "/c.json.tmp" = [] ∧ linkStart [] "c.json" = [] := by decide
  rw [resolve_of_usable (by decide), hstart, hroot.1, walk, if_pos (.inl rfl)]
  change linkedDraft.walk true (39 + 1) [] ["c.json.tmp"] = _
  rw [IsName.walk_link (by decide) hlink (by decide) (.inl rfl), hparts, hroot.2,
    IsName.walk_nothing (by decide) hnone]
  rfl

theorem read_linkedDraft : linkedDraft.read "/c.json" = .error .notFound := by
  have hnone : linkedDraft.node? ([] ++ ["c.json"]) = none := by rfl
  have hparts : pathParts "/c.json" = ["", "c.json"] := by decide
  have hroot : linkedDraft.start "/c.json" = [] := by decide
  have hresolve : linkedDraft.resolve true "/c.json" = .ok (.vacant ["c.json"] false) := by
    rw [resolve_of_usable (by decide), hparts, hroot, walk, if_pos (.inl rfl),
      IsName.walk_nothing (by decide) hnone]
    rfl
  rw [FileTree.read, hresolve]

/-- The same tree after nothing was written to the draft. -/
def spoiledByDraft : FileTree :=
  linkedDraft.insertNode ["c.json"] (.file (.bytes []))

theorem read_spoiledByDraft : spoiledByDraft.read "/c.json" = .ok [] := by
  have hfile : spoiledByDraft.node? ([] ++ ["c.json"]) = some (.file (.bytes [])) := by rfl
  have hparts : pathParts "/c.json" = ["", "c.json"] := by decide
  have hroot : spoiledByDraft.start "/c.json" = [] := by decide
  have hresolve : spoiledByDraft.resolve true "/c.json" =
      .ok (.found ["c.json"] (.file (.bytes []))) := by
    rw [resolve_of_usable (by decide), hparts, hroot, walk, if_pos (.inl rfl),
      IsName.walk_file (by decide) hfile]
    rfl
  rw [FileTree.read, hresolve]
  rfl

theorem fileReplaced_linkedDraft (bytes : List UInt8) (cause : OsError) :
    linkedDraft.fileReplaced "/c.json" bytes (some (.write (some 0) cause)) =
      (spoiledByDraft, .error ⟨"/c.json.tmp", cause⟩) := by
  have hpaths : parent? "/c.json" = some "/" ∧ draftPath "/c.json" = "/c.json.tmp" := by
    decide
  have hparent (parent : String) (h : parent? "/c.json" = some parent) :
      parent = "" ∨ linkedDraft.isDirAt parent := by
    obtain rfl := Option.some.inj (hpaths.1.symm.trans h)
    exact .inr (isDirAt_root linkedDraft)
  have hcreated : linkedDraft.parentCreated "/c.json" (some (.write (some 0) cause)) =
      (linkedDraft, .ok ()) :=
    parentCreated_of_isDirAt hparent
  have hwrite : linkedDraft.write "/c.json.tmp" (.bytes []) = .ok spoiledByDraft :=
    write_of_fileRoute resolve_linkedDraft rfl
  rw [fileReplaced, hcreated]
  simp only [Outcome.andThen, draftWritten, hpaths.2, writeFailing, Option.map_some,
    List.take_zero, hwrite]
  rfl

/-- Later calls notice failed ones that created a directory in the place of the file, or on the way
to it where there was none, and a draft that is a link to the file spoils it. -/
theorem failed_calls_leave_traces :
    (CatalogRequest.replies "t.json/../t.json" bareMachine [lookupEvents] =
        [.error (.tableNotFound "events")] ∧
      CatalogRequest.replies "t.json/../t.json" bareMachine [registerEvents none, lookupEvents] =
        [.error (.io "t.json/../t.json" .isADirectory),
          .error (.io "t.json/../t.json" .isADirectory)]) ∧
    (CatalogRequest.replies "/d/../f/c.json" (machineWith fileInTheWay) [lookupEvents] =
        [.error (.tableNotFound "events")] ∧
      CatalogRequest.replies "/d/../f/c.json" (machineWith fileInTheWay)
          [registerEvents none, lookupEvents] =
        [.error (.io "/d/../f" .fileExists), .error (.io "/d/../f/c.json" .notADirectory)]) ∧
    linkedDraft.read "/c.json" = .error .notFound ∧
      (registerEvents (some (diskFull 0))).run "/c.json" (machineWith linkedDraft) =
        (.error (.io "/c.json.tmp" (.other "No space left on device")),
          machineWith spoiledByDraft) ∧
      spoiledByDraft.read "/c.json" = .ok [] := by
  refine ⟨?_, ?_, read_linkedDraft, ?_, read_spoiledByDraft⟩
  · have hread : bareMachine.files.read "t.json/../t.json" = .error .notFound := by
      change (FileTree.empty []).read _ = _
      rw [FileTree.read, linkFree_empty.resolve_eq_stroll (by decide)]
      rfl
    obtain ⟨after, hreplace, hafter⟩ := @replaceFile_climbing bareMachine rfl
      (FileCatalog.encode eventsCatalog)
    exact ⟨replies_lookup_absent hread,
      replies_register_lookup hread (fileReplaced_of_run hreplace) hafter (by decide)⟩
  · have hread : fileInTheWay.read "/d/../f/c.json" = .error .notFound := by
      rw [FileTree.read, linkFree_fileInTheWay.resolve_eq_stroll (by decide)]
      rfl
    have hafter : (fileInTheWay.insertNode ["d"] .dir).read "/d/../f/c.json" =
        .error .notADirectory := by
      have hfree : (fileInTheWay.insertNode ["d"] .dir).LinkFree :=
        linkFree_fileInTheWay.insertNode ["d"] (by simp)
      rw [FileTree.read, hfree.resolve_eq_stroll (by decide)]
      rfl
    exact ⟨replies_lookup_absent hread,
      replies_register_lookup hread (fileReplaced_halfway _) hafter (by decide)⟩
  · have hfiles : (machineWith linkedDraft).files = linkedDraft := rfl
    rw [CatalogRequest.run_eq, hfiles]
    dsimp only [registerEvents, diskFull, CatalogRequest.onTree]
    rw [onTree_register_absent read_linkedDraft, fileReplaced_linkedDraft]
    rfl

end CommitCoordinator
