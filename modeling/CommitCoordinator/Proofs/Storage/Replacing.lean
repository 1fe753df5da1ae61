import CommitCoordinator.Storage.Replace

/-!
# Files that are replaced in one step

What a file holds after reads and replacements follows from a few promises of the file system
about the file and the draft beside it. Nothing is promised about operations that fail, and
nothing about the directories that are created.
-/

namespace CommitCoordinator.Storage

/-! ## Programs that run from a state and may fail -/

section Runs

variable {σ ε α β : Type} {s after : σ}

theorem state_bind (x : StateM σ α) (f : α → StateM σ β) (s : σ) :
    (x >>= f) s = f (x s).1 (x s).2 :=
  rfl

theorem run_bind_ok {x : ExceptT ε (StateM σ) α} {value : α} (h : x.run s = (.ok value, after))
    (f : α → ExceptT ε (StateM σ) β) : (x >>= f).run s = (f value).run after := by
  rw [ExceptT.run_bind]
  change StateT.bind x.run _ s = _
  rw [StateT.bind, h]
  rfl

theorem run_bind_error {x : ExceptT ε (StateM σ) α} {e : ε} (h : x.run s = (.error e, after))
    (f : α → ExceptT ε (StateM σ) β) : (x >>= f).run s = (.error e, after) := by
  rw [ExceptT.run_bind]
  change StateT.bind x.run _ s = _
  rw [StateT.bind, h]
  rfl

/-- A program that succeeds has succeeded step by step. -/
theorem run_bind_eq_ok {x : ExceptT ε (StateM σ) α} {f : α → ExceptT ε (StateM σ) β} {value : β}
    (h : (x >>= f).run s = (.ok value, after)) :
    ∃ first between, x.run s = (.ok first, between) ∧
      (f first).run between = (.ok value, after) := by
  cases hx : x.run s with
  | mk result between =>
    cases result with
    | error e =>
      rw [run_bind_error hx] at h
      cases h
    | ok first => exact ⟨first, between, rfl, run_bind_ok hx f ▸ h⟩

theorem run_lift {x : StateM σ α} {value : α} (h : x s = (value, after)) :
    (liftM x : ExceptT ε (StateM σ) α).run s = (.ok value, after) := by
  rw [ExceptT.run_liftM]
  change StateT.map _ x s = _
  rw [StateT.map, h]
  rfl

theorem run_adapt {ε' : Type} {x : ExceptT ε (StateM σ) α} {result : Except ε α}
    (h : x.run s = (result, after)) (f : ε → ε') :
    (x.adapt f).run s = (result.mapError f, after) := by
  rw [ExceptT.run_adapt]
  change StateT.map _ x.run s = _
  rw [StateT.map, h]
  rfl

theorem run_attempt {action : StateM σ (Except OsError α)} {result : Except OsError α}
    (h : action s = (result, after)) (path : String) :
    (attempt path action).run s = (result.mapError (FileFault.mk path), after) := by
  rw [attempt, ExceptT.run_mk]
  change StateT.bind action _ s = _
  rw [StateT.bind, h]
  rfl

end Runs

/-- What the answer of a file system means for a file that may be absent. -/
def ifPresent (path : String) :
    Except OsError (List UInt8) → Except FileFault (Option (List UInt8))
  | .ok content => .ok (some content)
  | .error .notFound => .ok none
  | .error cause => .error ⟨path, cause⟩

theorem run_readIfPresent_eq {σ : Type} [MonadFileSystem (StateM σ)] {path : String} {s after : σ}
    {result : Except OsError (List UInt8)}
    (h : (readFile path : StateM σ _) s = (result, after)) :
    (readIfPresent path : ExceptT FileFault (StateM σ) _).run s =
      (ifPresent path result, after) := by
  unfold readIfPresent
  rw [run_bind_ok (run_lift h)]
  rcases result with cause | content
  · cases cause <;> rfl
  · rfl

/-- The promises of a file system about a file and its draft. -/
structure FileLaws (σ : Type) [MonadFileSystem (StateM σ)] (path : String) where
  /-- The states in which the promises are kept. -/
  sound : σ → Prop
  /-- What the file holds, absent if there is none. -/
  content : σ → Option (List UInt8)
  /-- What the draft holds. -/
  draft : σ → Option (List UInt8)
  read {s after : σ} {result : Except OsError (List UInt8)} (h : sound s)
    (run : (readFile path : StateM σ _) s = (result, after)) :
    sound after ∧ content after = content s ∧
      (∀ bytes, result = .ok bytes → content s = some bytes) ∧
      (result = .error .notFound → content s = none)
  create {s after : σ} {result : Except OsError Unit} (dir : String) (h : sound s)
    (run : (createDirs dir : StateM σ _) s = (result, after)) : sound after
  write {s after : σ} {result : Except OsError Unit} (bytes : List UInt8) (h : sound s)
    (run : (writeFile (draftPath path) bytes : StateM σ _) s = (result, after)) :
    sound after ∧ (result = .ok () → draft after = some bytes)
  /-- Only drafts that have been written are moved. -/
  move {s after : σ} {result : Except OsError Unit} {bytes : List UInt8} (h : sound s)
    (hdraft : draft s = some bytes)
    (run : (rename (draftPath path) path : StateM σ _) s = (result, after)) :
    sound after ∧ (result = .ok () → content after = some bytes)

namespace FileLaws

variable {σ : Type} [MonadFileSystem (StateM σ)] {path : String} (laws : FileLaws σ path) {s : σ}

/-- A read returns what the file holds, or fails. -/
theorem run_readIfPresent (h : laws.sound s) :
    ∃ after, laws.sound after ∧ laws.content after = laws.content s ∧
      ((readIfPresent path : ExceptT _ (StateM σ) _).run s = (.ok (laws.content s), after) ∨
        ∃ cause, (readIfPresent path : ExceptT _ (StateM σ) _).run s =
          (.error ⟨path, cause⟩, after)) := by
  cases hread : (readFile path : StateM σ _) s with
  | mk result after =>
    obtain ⟨hsound, hcontent, hok, hnone⟩ := laws.read h hread
    refine ⟨after, hsound, hcontent, ?_⟩
    rw [run_readIfPresent_eq hread]
    cases result with
    | ok bytes =>
      rw [hok bytes rfl]
      exact .inl rfl
    | error cause =>
      cases cause with
      | notFound =>
        rw [hnone rfl]
        exact .inl rfl
      | _ => exact .inr ⟨_, rfl⟩

/-- A replaced file holds the new content, unless something failed. -/
theorem run_replaceFile (h : laws.sound s) (bytes : List UInt8) :
    ∃ after, laws.sound after ∧
      ((replaceFile path bytes : ExceptT _ (StateM σ) _).run s = (.ok (), after) ∧
          laws.content after = some bytes ∨
        ∃ fault, (replaceFile path bytes : ExceptT _ (StateM σ) _).run s =
          (.error fault, after)) := by
  have hparent : ∃ result after, (createParent path : ExceptT _ (StateM σ) _).run s =
      (result, after) ∧ laws.sound after := by
    unfold createParent
    split
    · next parent _ =>
      cases hcreate : (createDirs parent : StateM σ _) s with
      | mk result after =>
        exact ⟨_, after, run_attempt hcreate parent, laws.create parent h hcreate⟩
    · exact ⟨.ok (), s, rfl, h⟩
  obtain ⟨result, created, hparent, hcreated⟩ := hparent
  cases result with
  | error fault => exact ⟨created, hcreated, .inr ⟨fault, run_bind_error hparent _⟩⟩
  | ok =>
    cases hwrite : (writeFile (draftPath path) bytes : StateM σ _) created with
    | mk result written =>
      obtain ⟨hsound, hdraft⟩ := laws.write bytes hcreated hwrite
      have hattempt := run_attempt hwrite (draftPath path)
      cases result with
      | error cause =>
        refine ⟨written, hsound, .inr ⟨⟨draftPath path, cause⟩, ?_⟩⟩
        unfold replaceFile
        rw [run_bind_ok hparent, run_bind_error hattempt]
      | ok =>
        cases hmove : (rename (draftPath path) path : StateM σ _) written with
        | mk result moved =>
          obtain ⟨hmoved, hcontent⟩ := laws.move hsound (hdraft rfl) hmove
          have hrename := run_attempt hmove path
          have hrun : (replaceFile path bytes : ExceptT _ (StateM σ) _).run s =
              (result.mapError (FileFault.mk path), moved) := by
            unfold replaceFile
            rw [run_bind_ok hparent, run_bind_ok hattempt]
            exact hrename
          rw [hrun]
          cases result with
          | error cause => exact ⟨moved, hmoved, .inr ⟨⟨path, cause⟩, rfl⟩⟩
          | ok => exact ⟨moved, hmoved, .inl ⟨rfl, hcontent rfl⟩⟩

end FileLaws

end CommitCoordinator.Storage
