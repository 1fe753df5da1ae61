import CommitCoordinator.Machine
import CommitCoordinator.Proofs.Storage.Directory
import CommitCoordinator.Storage.Replace

/-!
# Replacing files on a machine that fails

A file is replaced in three steps: its directory is created, the draft is written, and the draft is
moved over the file. Each of them can fail. Whatever was done before, no other file is touched than
the file itself and its draft, and the file only if all of it succeeded.
-/

namespace CommitCoordinator

open Storage FileTree

/-- In which step replacing a file fails, what is done of this step all the same, and why. -/
inductive ReplaceFault where
  /-- No more than the directory so many levels above is created, with those on the way to it. -/
  | create (above : Nat) (cause : OsError)
  /-- No more than so many bytes come into the draft, if it is touched at all. -/
  | write (bytes : Option Nat) (cause : OsError)
  | move (cause : OsError)
deriving DecidableEq, Repr

/-- A machine and what is going to fail on it. -/
structure FailingMachine where
  machine : Machine
  fault : Option ReplaceFault

namespace FailingMachine

/-- Runs a program of the machine. -/
def onMachine {α : Type} (program : MachineM α) : StateM FailingMachine α := fun s ↦
  ((program s.machine).1, { s with machine := (program s.machine).2 })

/-- Fails after something else was done, or nothing. -/
def failAfter (done : Option (MachineM (Except OsError Unit))) (cause : OsError) :
    StateM FailingMachine (Except OsError Unit) := fun s ↦
  match done with
  | some program => (.error cause, (onMachine program s).2)
  | none => (.error cause, s)

/-- The path of the directory so many levels above. -/
def ancestor? (path : String) : Nat → Option String
  | 0 => some path
  | levels + 1 => (ancestor? path levels).bind parent?

instance : MonadFileSystem (StateM FailingMachine) where
  readFile path := onMachine (readFile path)
  writeFile path content := fun s ↦
    match s.fault with
    | some (.write bytes cause) =>
      failAfter (bytes.map fun length ↦ writeFile path (content.take length)) cause s
    | _ => onMachine (writeFile path content) s
  createDirs path := fun s ↦
    match s.fault with
    | some (.create above cause) => failAfter ((ancestor? path above).map createDirs) cause s
    | _ => onMachine (createDirs path) s
  rename source target := fun s ↦
    match s.fault with
    | some (.move cause) => failAfter none cause s
    | _ => onMachine (rename source target) s
  isFile path := onMachine (isFile path)
  listDir path := onMachine (listDir path)

instance : MonadMetrics (StateM FailingMachine) where
  emit event := onMachine (emit event)

/-! ## Single steps -/

/-- Whether a directory of the machine holds some files. -/
abbrev Holds (s : FailingMachine) (dir : String) (files : String → Option Content) : Prop :=
  s.machine.files.Holds dir files

variable {machine : Machine} {s : FailingMachine} {dir name draft path source : String}
  {files : String → Option Content}

theorem isAbove_of_ancestor? {above : String} {levels : Nat} (h : IsAbove dir path)
    (habove : ancestor? path levels = some above) : IsAbove dir above := by
  induction levels generalizing above with
  | zero =>
    cases habove
    exact h
  | succ levels ih =>
    obtain ⟨between, hbetween, hparent⟩ := Option.bind_eq_some_iff.1 habove
    exact (ih hbetween).parent hparent

theorem holds_createDirs (h : s.Holds dir files) (habove : IsAbove dir path) :
    ((createDirs path : StateM FailingMachine _) s).2.Holds dir files := by
  change (match s.fault with
    | some (.create above cause) => failAfter ((ancestor? path above).map createDirs) cause s
    | _ => onMachine (createDirs path) s).2.Holds dir files
  split
  · next levels cause _ =>
    cases hancestor : ancestor? path levels with
    | none => exact h
    | some above => exact h.createDirsTo (isAbove_of_ancestor? habove hancestor)
  · exact h.createDirsTo habove

theorem holds_writeFile_machine (h : machine.files.Holds dir files)
    (hentry : IsEntry dir name path) (hname : IsFileName name.toList) (bytes : List UInt8) :
    ∃ content,
      ((writeFile path bytes : MachineM _) machine).2.files.Holds dir
        (Function.update files name content) ∧
      (((writeFile path bytes : MachineM _) machine).1 = .ok () →
        content = some (.bytes bytes)) := by
  rcases change_eq (Prod.eta ((writeFile path bytes : MachineM _) machine)).symm with
    ⟨-, hwrite⟩ | ⟨⟨cause, herror⟩, hsame⟩
  · exact ⟨some (.bytes bytes), h.write hentry hname hwrite, fun _ ↦ rfl⟩
  · refine ⟨files name, ?_, fun hok ↦ ?_⟩
    · rw [hsame, Function.update_eq_self]
      exact h
    · cases herror.symm.trans hok

/-- Whatever comes of writing a file, no other file is touched. -/
theorem holds_writeFile (h : s.Holds dir files) (hentry : IsEntry dir name path)
    (hname : IsFileName name.toList) (bytes : List UInt8) :
    ∃ content,
      ((writeFile path bytes : StateM FailingMachine _) s).2.Holds dir
        (Function.update files name content) ∧
      (((writeFile path bytes : StateM FailingMachine _) s).1 = .ok () →
        content = some (.bytes bytes)) := by
  let run := match s.fault with
    | some (.write length cause) =>
      failAfter (length.map fun length ↦ writeFile path (bytes.take length)) cause s
    | _ => onMachine (writeFile path bytes) s
  change ∃ content, run.2.Holds dir (Function.update files name content) ∧
    (run.1 = .ok () → content = some (.bytes bytes))
  unfold run
  split
  · next length cause _ =>
    cases length with
    | none => exact ⟨files name, by rwa [Function.update_eq_self], nofun⟩
    | some length =>
      obtain ⟨content, hwritten, -⟩ :=
        holds_writeFile_machine h hentry hname (bytes.take length)
      exact ⟨content, hwritten, nofun⟩
  · exact holds_writeFile_machine h hentry hname bytes

/-- A move that fails does nothing, and one that succeeds touches two files. -/
theorem holds_rename (h : s.Holds dir files) (hentry : IsEntry dir name path)
    (hname : IsFileName name.toList) (hsource : IsEntry dir draft source)
    (hdraft : IsFileName draft.toList) (hne : name ≠ draft) :
    ∃ files', ((rename source path : StateM FailingMachine _) s).2.Holds dir files' ∧
      (∀ other, other ≠ name → other ≠ draft → files' other = files other) ∧
      (((rename source path : StateM FailingMachine _) s).1 = .ok () →
        files' name = files draft) ∧
      (((rename source path : StateM FailingMachine _) s).1 ≠ .ok () → files' = files) := by
  let run := match s.fault with
    | some (.move cause) => failAfter none cause s
    | _ => onMachine (rename source path) s
  change ∃ files', run.2.Holds dir files' ∧
      (∀ other, other ≠ name → other ≠ draft → files' other = files other) ∧
      (run.1 = .ok () → files' name = files draft) ∧ (run.1 ≠ .ok () → files' = files)
  unfold run
  split
  · exact ⟨files, h, fun _ _ _ ↦ rfl, nofun, fun _ ↦ rfl⟩
  · rcases change_eq (Prod.eta ((rename source path : MachineM _) s.machine)).symm with
      ⟨hok, hmove⟩ | ⟨⟨cause, herror⟩, hsame⟩
    · obtain ⟨content, hfile, hmoved⟩ := h.renameTo hentry hname hsource hdraft hne hmove
      refine ⟨_, hmoved, ?_, ?_, fun hfailed ↦ absurd hok hfailed⟩
      · intro other hother hother'
        rw [Function.update_of_ne hother, Function.update_of_ne hother']
      · intro _
        rw [Function.update_self, hfile]
    · refine ⟨files, ?_, fun _ _ _ ↦ rfl, ?_, fun _ ↦ rfl⟩
      · change ((rename source path : MachineM _) s.machine).2.files.Holds dir files
        rw [hsame]
        exact h
      · intro hok
        cases herror.symm.trans hok

/-! ## The steps together -/

theorem holds_createParent (h : s.Holds dir files) (hentry : IsEntry dir name path) :
    ((createParent path : ExceptT FileFault (StateM FailingMachine) _).run s).2.Holds dir
      files := by
  unfold createParent
  split
  · next parent hparent =>
    have hdirs := Prod.eta ((createDirs parent : StateM FailingMachine _) s)
    rw [run_attempt hdirs.symm parent]
    exact holds_createDirs h (hentry.parent hparent)
  · exact h

/-- What becomes of the files of a directory when one of them is replaced: nothing is touched but
its draft and, only if this is done, the file itself. -/
structure Replaced (files : String → Option Content) (name : String) (bytes : List UInt8)
    (done : Prop) (files' : String → Option Content) : Prop where
  others : ∀ other, other ≠ name → other ≠ draftPath name → files' other = files other
  stored : done → files' name = some (.bytes bytes)
  kept : ¬done → files' name = files name

namespace Replaced

variable {bytes : List UInt8} {done : Prop}

theorem of_not (hdone : ¬done) : Replaced files name bytes done files where
  others _ _ _ := rfl
  stored hdone' := absurd hdone' hdone
  kept _ := rfl

theorem of_draft (hne : name ≠ draftPath name) (hdone : ¬done) (content : Option Content) :
    Replaced files name bytes done (Function.update files (draftPath name) content) where
  others _ _ hother := Function.update_of_ne hother _ _
  stored hdone' := absurd hdone' hdone
  kept _ := Function.update_of_ne hne _ _

theorem congr_done {done' : Prop} {files' : String → Option Content}
    (h : Replaced files name bytes done files') (hdone : done ↔ done') :
    Replaced files name bytes done' files' :=
  propext hdone ▸ h

end Replaced

/-- Once the directory is there, the draft is written and moved. -/
theorem holds_fillDraft (h : s.Holds dir files) (hentry : IsEntry dir name path)
    (hname : IsFileName name.toList) (hne : name ≠ draftPath name) (bytes : List UInt8) :
    ∃ result after files',
      (do attempt (draftPath path) (writeFile (draftPath path) bytes)
          attempt path (rename (draftPath path) path) :
        ExceptT FileFault (StateM FailingMachine) _).run s = (result, after) ∧
      after.Holds dir files' ∧ Replaced files name bytes (result = .ok ()) files' := by
  obtain ⟨content, hwritten, hcontent⟩ :=
    holds_writeFile h (hentry.draft hname) hname.draft bytes
  cases hwrite : (writeFile (draftPath path) bytes : StateM FailingMachine _) s with
  | mk result written =>
    rw [hwrite] at hwritten hcontent
    have hattempt := run_attempt hwrite (draftPath path)
    cases result with
    | error cause =>
      exact ⟨_, written, _, run_bind_error hattempt _, hwritten, .of_draft hne nofun content⟩
    | ok =>
      rw [run_bind_ok hattempt]
      obtain ⟨files', hmoved, hsame, hdone, hfailed⟩ :=
        holds_rename hwritten hentry hname (hentry.draft hname) hname.draft hne
      cases hrename : (rename (draftPath path) path : StateM FailingMachine _) written with
      | mk result moved =>
        rw [hrename] at hmoved hdone hfailed
        refine ⟨_, moved, files', run_attempt hrename path, hmoved, ?_⟩
        cases result with
        | error cause =>
          rw [hfailed nofun]
          exact .of_draft hne nofun content
        | ok =>
          refine ⟨?_, ?_, fun hnot ↦ absurd rfl hnot⟩
          · intro other hother hother'
            rw [hsame other hother hother', Function.update_of_ne hother']
          · intro _
            rw [hdone rfl, Function.update_self, hcontent rfl]

/-- Replacing a file touches the draft, and the file if it succeeds. -/
theorem holds_replaceFile (h : s.Holds dir files) (hentry : IsEntry dir name path)
    (hname : IsFileName name.toList) (hne : name ≠ draftPath name) (bytes : List UInt8) :
    ∃ result after files',
      (replaceFile path bytes : ExceptT FileFault (StateM FailingMachine) _).run s =
        (result, after) ∧
      after.Holds dir files' ∧ Replaced files name bytes (result = .ok ()) files' := by
  have hcreated := holds_createParent h hentry
  cases hparent : (createParent path : ExceptT FileFault (StateM FailingMachine) _).run s with
  | mk result created =>
    rw [hparent] at hcreated
    unfold replaceFile
    cases result with
    | error fault =>
      exact ⟨_, created, files, run_bind_error hparent _, hcreated, .of_not nofun⟩
    | ok =>
      rw [run_bind_ok hparent]
      exact holds_fillDraft hcreated hentry hname hne bytes

/-! ## Machines that do not fail -/

/-- Whether a program does the same on a machine on which nothing is going to fail. -/
def Reliable {ε α : Type} (program : ExceptT ε (StateM FailingMachine) α)
    (onMachine : ExceptT ε MachineM α) : Prop :=
  ∀ machine, program.run ⟨machine, none⟩ =
    ((onMachine.run machine).1, ⟨(onMachine.run machine).2, none⟩)

section Reliable

variable {ε α β : Type}

theorem Reliable.bind {x : ExceptT ε (StateM FailingMachine) α} {y : ExceptT ε MachineM α}
    {f : α → ExceptT ε (StateM FailingMachine) β} {g : α → ExceptT ε MachineM β}
    (h : Reliable x y) (h' : ∀ value, Reliable (f value) (g value)) :
    Reliable (x >>= f) (y >>= g) := by
  intro machine
  have hx := h machine
  cases hy : y.run machine with
  | mk result between =>
    rw [hy] at hx
    cases result with
    | error e => rw [run_bind_error hx, run_bind_error hy]
    | ok value => rw [run_bind_ok hx, run_bind_ok hy, h' value between]

theorem reliable_attempt {path : String} {x : StateM FailingMachine (Except OsError α)}
    {y : MachineM (Except OsError α)}
    (h : ∀ machine, x ⟨machine, none⟩ = ((y machine).1, ⟨(y machine).2, none⟩)) :
    Reliable (attempt path x) (attempt path y) := by
  intro machine
  rw [run_attempt (h machine) path, run_attempt (Prod.eta (y machine)).symm path]

theorem reliable_replaceFile (path : String) (bytes : List UInt8) :
    Reliable (replaceFile path bytes) (replaceFile path bytes) := by
  unfold replaceFile
  apply Reliable.bind
  · unfold createParent
    split
    · exact reliable_attempt fun _ ↦ rfl
    · exact fun _ ↦ rfl
  · intro _
    apply Reliable.bind
    · exact reliable_attempt fun _ ↦ rfl
    · intro _
      exact reliable_attempt fun _ ↦ rfl

end Reliable

end FailingMachine

end CommitCoordinator
