import CommitCoordinator.Proofs.Checkpoint.Failing

/-!
# The steps of a replacement on trees

A replacement that may meet a fault creates a directory, writes a draft and moves it. What becomes
of the files in each of these steps is a function of the tree, and it depends only on what stands
where, not on the order in which it came there.
-/

namespace CommitCoordinator.Storage

namespace FileTree

/-! ## Trees in which the same stands everywhere -/

/-- Whether the same stands at the end of each route. -/
structure Alike (tree other : FileTree) : Prop where
  workingDir : tree.workingDir = other.workingDir
  node? (route : Route) : tree.node? route = other.node? route

/-- Whether an operation fails for the same reason on two trees, or makes them alike. -/
inductive AlikeResults : Except OsError FileTree → Except OsError FileTree → Prop where
  | ok {tree other : FileTree} (h : tree.Alike other) : AlikeResults (.ok tree) (.ok other)
  | error (cause : OsError) : AlikeResults (.error cause) (.error cause)

variable {tree other : FileTree}

namespace Alike

theorem refl (tree : FileTree) : tree.Alike tree :=
  ⟨rfl, fun _ ↦ rfl⟩

theorem symm (h : tree.Alike other) : other.Alike tree :=
  ⟨h.workingDir.symm, fun route ↦ (h.node? route).symm⟩

theorem trans {third : FileTree} (h : tree.Alike other) (h' : other.Alike third) :
    tree.Alike third :=
  ⟨h.workingDir.trans h'.workingDir, fun route ↦ (h.node? route).trans (h'.node? route)⟩

theorem insertNode (h : tree.Alike other) (route : Route) (node : Node) :
    (tree.insertNode route node).Alike (other.insertNode route node) where
  workingDir := h.workingDir
  node? place := by
    by_cases hplace : place = route
    · subst hplace
      by_cases hroot : place = []
      · rw [hroot]
        rfl
      · rw [node?_insertNode_self _ hroot, node?_insertNode_self _ hroot]
    · rw [node?_insertNode_of_ne _ hplace, node?_insertNode_of_ne _ hplace, h.node?]

theorem eraseNode (h : tree.Alike other) (route : Route) :
    (tree.eraseNode route).Alike (other.eraseNode route) where
  workingDir := h.workingDir
  node? place := by
    by_cases hplace : place = route
    · subst hplace
      by_cases hroot : place = []
      · rw [hroot]
        rfl
      · rw [node?_eraseNode_self hroot, node?_eraseNode_self hroot]
    · rw [node?_eraseNode_of_ne _ hplace, node?_eraseNode_of_ne _ hplace, h.node?]

/-- Of two nodes that come to the same place, the later one stays. -/
theorem overwrite (tree : FileTree) (route : Route) (node node' : Node) :
    ((tree.insertNode route node).insertNode route node').Alike
      (tree.insertNode route node') where
  workingDir := rfl
  node? place := by
    by_cases hplace : place = route
    · subst hplace
      by_cases hroot : place = []
      · rw [hroot]
        rfl
      · rw [node?_insertNode_self _ hroot, node?_insertNode_self _ hroot]
    · rw [node?_insertNode_of_ne _ hplace, node?_insertNode_of_ne _ hplace,
        node?_insertNode_of_ne _ hplace]

/-! ### Operations -/

theorem walk_eq (h : tree.Alike other) (followLast : Bool) (links : Nat) (here : Route)
    (parts : List String) :
    tree.walk followLast links here parts = other.walk followLast links here parts := by
  -- A link is followed with fewer links left, every other part with fewer parts.
  induction links using Nat.strongRecOn generalizing here parts with
  | _ links ih =>
    induction parts generalizing here with
    | nil => rw [walk, walk]
    | cons part rest ih' =>
      rw [walk, walk.eq_def other, ih' here, ih' here.dropLast]
      dsimp only
      rw [h.node?]
      cases other.node? (here ++ [part]) with
      | none => rfl
      | some node =>
        cases node with
        | dir => rw [ih' (here ++ [part])]
        | file content => rfl
        | link target =>
          cases links with
          | zero => rfl
          | succ links =>
            dsimp only
            rw [ih links (Nat.lt_succ_self links)]

theorem resolve_eq (h : tree.Alike other) (followLast : Bool) (path : String) :
    tree.resolve followLast path = other.resolve followLast path := by
  unfold resolve
  simp only [h.walk_eq, h.workingDir]

theorem read_eq (h : tree.Alike other) (path : String) : tree.read path = other.read path := by
  rw [read, read, h.resolve_eq]

theorem isDirAt_eq (h : tree.Alike other) (path : String) :
    tree.isDirAt path = other.isDirAt path := by
  rw [isDirAt, isDirAt, h.resolve_eq]

theorem write (h : tree.Alike other) (path : String) (content : Content) :
    AlikeResults (tree.write path content) (other.write path content) := by
  rw [FileTree.write, FileTree.write, h.resolve_eq]
  rcases other.resolve true path with cause | ⟨route, node⟩ | ⟨route, slash⟩
  · exact .error cause
  · cases node with
    | file old => exact .ok (h.insertNode route _)
    | _ => exact .error _
  · cases slash with
    | true => exact .error _
    | false => exact .ok (h.insertNode route _)

theorem createDir (h : tree.Alike other) (path : String) :
    AlikeResults (tree.createDir path) (other.createDir path) := by
  rw [FileTree.createDir, FileTree.createDir, h.resolve_eq]
  rcases other.resolve false path with cause | ⟨route, node⟩ | ⟨route, slash⟩
  · exact .error cause
  · exact .error _
  · exact .ok (h.insertNode route _)

theorem renameTo (h : tree.Alike other) (source target : String) :
    AlikeResults (tree.renameTo source target) (other.renameTo source target) := by
  have hmoved (route sourceRoute : Route) (node : Node) : AlikeResults
      (if route = sourceRoute then .ok tree
        else .ok ((tree.eraseNode sourceRoute).insertNode route node))
      (if route = sourceRoute then .ok other
        else .ok ((other.eraseNode sourceRoute).insertNode route node)) := by
    split
    · exact .ok h
    · exact .ok ((h.eraseNode sourceRoute).insertNode route node)
  rw [FileTree.renameTo, FileTree.renameTo, h.resolve_eq, h.resolve_eq]
  rcases other.resolve false source with cause | ⟨sourceRoute, node⟩ | ⟨route, slash⟩
  · exact .error cause
  · rcases other.resolve false target with cause | ⟨route, old⟩ | ⟨route, slash⟩
    · exact .error cause
    · cases old with
      | dir => exact .error _
      | file old => exact hmoved route sourceRoute node
      | link old => exact hmoved route sourceRoute node
    · cases slash with
      | true => exact .error _
      | false => exact hmoved route sourceRoute node
  · exact .error _

end Alike

/-- Whether two operations come to the same result and to trees that are alike. -/
def AlikeOutcomes {α : Type} (outcome outcome' : FileTree × α) : Prop :=
  outcome.2 = outcome'.2 ∧ outcome.1.Alike outcome'.1

theorem Alike.createDirsWithin (h : tree.Alike other) (path : String) (fuel : Nat) :
    AlikeOutcomes (tree.createDirsWithin path fuel) (other.createDirsWithin path fuel) := by
  induction fuel generalizing path with
  | zero => exact ⟨rfl, h⟩
  | succ fuel ih =>
    rw [FileTree.createDirsWithin, FileTree.createDirsWithin, h.isDirAt_eq]
    split
    · exact ⟨rfl, h⟩
    have hcreate := h.createDir path
    generalize tree.createDir path = made, other.createDir path = made' at hcreate
    cases hcreate with
    | ok hmade => exact ⟨rfl, hmade⟩
    | error cause =>
      cases cause with
      | notFound =>
        cases parent? path with
        | none => exact ⟨rfl, h⟩
        | some parent =>
          dsimp only
          obtain ⟨hresult, habove⟩ := ih parent
          generalize tree.createDirsWithin parent fuel = outcome,
            other.createDirsWithin parent fuel = outcome' at hresult habove
          obtain ⟨above, result⟩ := outcome
          obtain ⟨above', result'⟩ := outcome'
          obtain rfl : result = result' := hresult
          cases result with
          | error cause => exact ⟨rfl, habove⟩
          | ok =>
            have hlast := habove.createDir path
            dsimp only
            rw [habove.isDirAt_eq]
            generalize above.createDir path = made, above'.createDir path = made' at hlast
            cases hlast with
            | ok hmade => exact ⟨rfl, hmade⟩
            | error cause => exact ⟨rfl, habove⟩
      | _ => exact ⟨rfl, h⟩

theorem Alike.createDirsTo (h : tree.Alike other) (path : String) :
    AlikeOutcomes (tree.createDirsTo path) (other.createDirsTo path) :=
  h.createDirsWithin path _

/-! ## Operations that may meet a fault -/

/-- The tree after an operation, which leaves it as it is if it fails. -/
def attempted (tree : FileTree) : Except OsError FileTree → FileTree × Except OsError Unit
  | .ok changed => (changed, .ok ())
  | .error cause => (tree, .error cause)

/-- Creates directories up to the one so many levels above if a fault says so. -/
def createDirsFailing (tree : FileTree) (path : String) (fault : Option ReplaceFault) :
    FileTree × Except OsError Unit :=
  match fault with
  | some (.create levels cause) =>
    (((FailingMachine.ancestor? path levels).map fun above ↦ (tree.createDirsTo above).1).getD tree,
      .error cause)
  | _ => tree.createDirsTo path

/-- Writes no more than so many bytes if a fault says so. -/
def writeFailing (tree : FileTree) (path : String) (bytes : List UInt8)
    (fault : Option ReplaceFault) : FileTree × Except OsError Unit :=
  let written (bytes : List UInt8) := tree.attempted (tree.write path (.bytes bytes))
  match fault with
  | some (.write length cause) =>
    ((length.map fun length ↦ (written (bytes.take length)).1).getD tree, .error cause)
  | _ => written bytes

def renameFailing (tree : FileTree) (source target : String) (fault : Option ReplaceFault) :
    FileTree × Except OsError Unit :=
  match fault with
  | some (.move cause) => (tree, .error cause)
  | _ => tree.attempted (tree.renameTo source target)

/-! ### The steps of a replacement -/

/-- A tree and the result of the operations that led to it. -/
abbrev Outcome : Type :=
  FileTree × Except FileFault Unit

/-- The outcome of an operation about a path. -/
def outcomeAt (path : String) (outcome : FileTree × Except OsError Unit) : Outcome :=
  (outcome.1, outcome.2.mapError (FileFault.mk path))

/-- Goes on after operations that succeeded. -/
def Outcome.andThen (outcome : Outcome) (next : FileTree → Outcome) : Outcome :=
  match outcome with
  | (tree, .ok ()) => next tree
  | (tree, .error fault) => (tree, .error fault)

variable (path : String) (bytes : List UInt8) (fault : Option ReplaceFault)

def parentCreated (tree : FileTree) : Outcome :=
  match parent? path with
  | none => (tree, .ok ())
  | some parent => outcomeAt parent (tree.createDirsFailing parent fault)

def draftWritten (tree : FileTree) : Outcome :=
  outcomeAt (draftPath path) (tree.writeFailing (draftPath path) bytes fault)

def draftMoved (tree : FileTree) : Outcome :=
  outcomeAt path (tree.renameFailing (draftPath path) path fault)

/-- The tree after the replacement of a file. -/
def fileReplaced (tree : FileTree) : Outcome :=
  (tree.parentCreated path fault).andThen fun created ↦
    (created.draftWritten path bytes fault).andThen fun written ↦ written.draftMoved path fault

/-! ### Steps on trees that are alike -/

section Alike

variable {path bytes fault} {outcome outcome' : Outcome}

theorem AlikeOutcomes.at {outcome outcome' : FileTree × Except OsError Unit}
    (h : AlikeOutcomes outcome outcome') (path : String) :
    AlikeOutcomes (outcomeAt path outcome) (outcomeAt path outcome') :=
  ⟨congrArg (Except.mapError (FileFault.mk path)) h.1, h.2⟩

theorem AlikeOutcomes.andThen {next : FileTree → Outcome} (h : AlikeOutcomes outcome outcome')
    (hnext : ∀ tree other, tree.Alike other → AlikeOutcomes (next tree) (next other)) :
    AlikeOutcomes (outcome.andThen next) (outcome'.andThen next) := by
  obtain ⟨tree, result⟩ := outcome
  obtain ⟨other, result'⟩ := outcome'
  obtain ⟨rfl, halike⟩ := h
  cases result with
  | error cause => exact ⟨rfl, halike⟩
  | ok => exact hnext tree other halike

namespace Alike

theorem attempted (h : tree.Alike other) {changed changed' : Except OsError FileTree}
    (hchanged : AlikeResults changed changed') :
    AlikeOutcomes (tree.attempted changed) (other.attempted changed') := by
  cases hchanged with
  | ok h => exact ⟨rfl, h⟩
  | error cause => exact ⟨rfl, h⟩

theorem createDirsFailing (h : tree.Alike other) (path : String) (fault : Option ReplaceFault) :
    AlikeOutcomes (tree.createDirsFailing path fault) (other.createDirsFailing path fault) := by
  rcases fault with _ | ⟨levels, cause⟩ | _ | _
  · exact h.createDirsTo path
  · refine ⟨rfl, ?_⟩
    dsimp only [FileTree.createDirsFailing]
    cases FailingMachine.ancestor? path levels with
    | none => exact h
    | some above => exact (h.createDirsTo above).2
  · exact h.createDirsTo path
  · exact h.createDirsTo path

theorem writeFailing (h : tree.Alike other) (path : String) (bytes : List UInt8)
    (fault : Option ReplaceFault) :
    AlikeOutcomes (tree.writeFailing path bytes fault) (other.writeFailing path bytes fault) := by
  have hwritten (bytes : List UInt8) := h.attempted (h.write path (.bytes bytes))
  rcases fault with _ | _ | ⟨length, cause⟩ | _
  · exact hwritten bytes
  · exact hwritten bytes
  · cases length with
    | none => exact ⟨rfl, h⟩
    | some length => exact ⟨rfl, (hwritten (bytes.take length)).2⟩
  · exact hwritten bytes

theorem renameFailing (h : tree.Alike other) (source target : String)
    (fault : Option ReplaceFault) :
    AlikeOutcomes (tree.renameFailing source target fault)
      (other.renameFailing source target fault) := by
  have hmoved := h.attempted (h.renameTo source target)
  rcases fault with _ | _ | _ | cause
  · exact hmoved
  · exact hmoved
  · exact hmoved
  · exact ⟨rfl, h⟩

theorem parentCreated (h : tree.Alike other) (path : String) (fault : Option ReplaceFault) :
    AlikeOutcomes (tree.parentCreated path fault) (other.parentCreated path fault) := by
  unfold FileTree.parentCreated
  cases parent? path with
  | none => exact ⟨rfl, h⟩
  | some parent => exact (h.createDirsFailing parent fault).at parent

theorem draftMoved (h : tree.Alike other) (path : String) (fault : Option ReplaceFault) :
    AlikeOutcomes (tree.draftMoved path fault) (other.draftMoved path fault) :=
  (h.renameFailing (draftPath path) path fault).at path

/-- A replacement comes to the same on trees that are alike. -/
theorem fileReplaced (h : tree.Alike other) (path : String) (bytes : List UInt8)
    (fault : Option ReplaceFault) :
    AlikeOutcomes (tree.fileReplaced path bytes fault) (other.fileReplaced path bytes fault) := by
  apply (h.parentCreated path fault).andThen
  intro created created' hcreated
  apply ((hcreated.writeFailing (draftPath path) bytes fault).at (draftPath path)).andThen
  intro written written' hwritten
  exact hwritten.draftMoved path fault

end Alike

end Alike

end FileTree

section Machines

open FileTree FailingMachine

variable {fault : Option ReplaceFault}

/-- Whether a program on a failing machine does to the files what an operation does. -/
def Performs (program : ExceptT FileFault (StateM FailingMachine) Unit)
    (fault : Option ReplaceFault) (operation : FileTree → Outcome) : Prop :=
  ∀ machine, program.run ⟨machine, fault⟩ =
    ((operation machine.files).2, ⟨{ machine with files := (operation machine.files).1 }, fault⟩)

theorem Performs.bind {x y : ExceptT FileFault (StateM FailingMachine) Unit}
    {operation next : FileTree → Outcome} (hx : Performs x fault operation)
    (hy : Performs y fault next) :
    Performs (do x; y) fault fun tree ↦ (operation tree).andThen next := by
  intro machine
  have hx := hx machine
  dsimp only
  cases houtcome : operation machine.files with
  | mk changed result =>
    rw [houtcome] at hx
    cases result with
    | error cause => exact run_bind_error hx _
    | ok => exact (run_bind_ok hx _).trans (hy { machine with files := changed })

theorem performs_attempt {action : StateM FailingMachine (Except OsError Unit)}
    (operation : FileTree → FileTree × Except OsError Unit)
    (h : ∀ machine, action ⟨machine, fault⟩ = ((operation machine.files).2,
      ⟨{ machine with files := (operation machine.files).1 }, fault⟩)) (path : String) :
    Performs (attempt path action) fault fun tree ↦ outcomeAt path (operation tree) :=
  fun machine ↦ run_attempt (h machine) path

/-- An operation of a machine, which changes nothing if it fails. -/
theorem onMachine_change (operation : FileTree → Except OsError FileTree) (machine : Machine)
    (fault : Option ReplaceFault) :
    onMachine (Machine.change operation) ⟨machine, fault⟩ =
      ((machine.files.attempted (operation machine.files)).2,
        ⟨{ machine with files := (machine.files.attempted (operation machine.files)).1 },
          fault⟩) := by
  rw [onMachine, Machine.change]
  cases operation machine.files <;> rfl

theorem createDirs_eq (path : String) (machine : Machine) :
    (createDirs path : StateM FailingMachine _) ⟨machine, fault⟩ =
      ((machine.files.createDirsFailing path fault).2,
        ⟨{ machine with files := (machine.files.createDirsFailing path fault).1 }, fault⟩) := by
  rcases fault with _ | ⟨levels, cause⟩ | _ | _
  · rfl
  · change failAfter ((ancestor? path levels).map createDirs) cause ⟨machine, _⟩ = _
    dsimp only [createDirsFailing]
    cases ancestor? path levels <;> rfl
  · rfl
  · rfl

theorem writeFile_eq (path : String) (bytes : List UInt8) (machine : Machine) :
    (writeFile path bytes : StateM FailingMachine _) ⟨machine, fault⟩ =
      ((machine.files.writeFailing path bytes fault).2,
        ⟨{ machine with files := (machine.files.writeFailing path bytes fault).1 }, fault⟩) := by
  have hwrite (bytes : List UInt8) := onMachine_change (·.write path (.bytes bytes)) machine
  rcases fault with _ | _ | ⟨length, cause⟩ | _
  · exact hwrite bytes _
  · exact hwrite bytes _
  · cases length with
    | none => rfl
    | some length =>
      change (Except.error cause, (onMachine (Machine.change _) ⟨machine, _⟩).2) = _
      rw [hwrite (bytes.take length)]
      rfl
  · exact hwrite bytes _

theorem rename_eq (source target : String) (machine : Machine) :
    (rename source target : StateM FailingMachine _) ⟨machine, fault⟩ =
      ((machine.files.renameFailing source target fault).2,
        ⟨{ machine with files := (machine.files.renameFailing source target fault).1 },
          fault⟩) := by
  have hmove := onMachine_change (·.renameTo source target) machine
  rcases fault with _ | _ | _ | cause
  · exact hmove _
  · exact hmove _
  · exact hmove _
  · rfl

theorem performs_createParent (path : String) (fault : Option ReplaceFault) :
    Performs (createParent path) fault (·.parentCreated path fault) := by
  unfold createParent parentCreated
  cases parent? path with
  | none => exact fun _ ↦ rfl
  | some parent =>
    exact performs_attempt (·.createDirsFailing parent fault) (createDirs_eq parent) parent

/-- A replacement on a failing machine goes through its steps on the tree of the machine. -/
theorem performs_replaceFile (path : String) (bytes : List UInt8) (fault : Option ReplaceFault) :
    Performs (replaceFile path bytes) fault (·.fileReplaced path bytes fault) := by
  have hdraft := performs_attempt (·.writeFailing (draftPath path) bytes fault)
    (writeFile_eq (draftPath path) bytes) (draftPath path)
  have hmove := performs_attempt (·.renameFailing (draftPath path) path fault)
    (rename_eq (draftPath path) path) path
  exact (performs_createParent path fault).bind (hdraft.bind hmove)

end Machines

end CommitCoordinator.Storage
