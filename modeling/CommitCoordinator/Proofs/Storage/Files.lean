import CommitCoordinator.Coordinator.Attempt
import CommitCoordinator.Proofs.Storage.Replacing
import CommitCoordinator.Storage.Listing

/-!
# Several files that are replaced in one step

Programs that replace different files do not get in each other's way, as long as none of the files
is another one or the draft of another one. This follows from promises of the file system about each
operation: it leaves all files alone that it is not about.
-/

namespace CommitCoordinator.Storage

/-- Whether an action leaves the contents of all files alone. -/
def Quiet {σ α : Type} (sound : σ → Prop) (content : σ → String → Option (List UInt8))
    (action : StateM σ α) : Prop :=
  ∀ s, sound s → sound (action s).2 ∧ content (action s).2 = content s

section Quiet

variable {σ α β : Type} {sound : σ → Prop} {content : σ → String → Option (List UInt8)}

theorem quiet_pure (value : α) : Quiet sound content (pure value) :=
  fun _ hsound ↦ ⟨hsound, rfl⟩

theorem Quiet.bind {x : StateM σ α} {f : α → StateM σ β} (hx : Quiet sound content x)
    (hf : ∀ value, Quiet sound content (f value)) : Quiet sound content (x >>= f) := by
  intro s hsound
  obtain ⟨hbetween, hsame⟩ := hx s hsound
  obtain ⟨hafter, hlast⟩ := hf (x s).1 (x s).2 hbetween
  exact ⟨hafter, hlast.trans hsame⟩

end Quiet

/-- The promises of a file system about some files and their drafts. Nothing else than the file that
is written or moved changes, and the draft that it is moved from. -/
structure FilesLaws (σ : Type) [MonadFileSystem (StateM σ)] [MonadObjectStore (StateM σ)]
    [MonadMetrics (StateM σ)] [MonadFresh (StateM σ)] [MonadClock (StateM σ)]
    (files : String → Prop) where
  /-- The states in which the promises are kept. -/
  sound : σ → Prop
  /-- What a file or a draft holds, absent if there is none. -/
  content : σ → String → Option (List UInt8)
  /-- Whether two paths lead to different files. -/
  apart : String → String → Prop
  apart_symm {path other : String} (h : apart path other) : apart other path
  apart_of_names {path other : String} {name name' : List Char} (h : fileName? path = some name)
    (h' : fileName? other = some name') (hne : name ≠ name') : apart path other
  read {path : String} {s after : σ} {result : Except OsError (List UInt8)} (hpath : files path)
    (h : sound s) (run : (readFile path : StateM σ _) s = (result, after)) :
    sound after ∧ content after = content s ∧
      (∀ bytes, result = .ok bytes → content s path = some bytes) ∧
      (result = .error .notFound → content s path = none)
  look {path : String} {s after : σ} {result : Bool} (hpath : files path) (h : sound s)
    (run : (isFile path : StateM σ _) s = (result, after)) :
    sound after ∧ content after = content s ∧ (result = false → content s path = none)
  create {s after : σ} {result : Except OsError Unit} (dir : String) (h : sound s)
    (run : (createDirs dir : StateM σ _) s = (result, after)) :
    sound after ∧ ∀ other, files other → content after other = content s other
  write {path : String} {s after : σ} {result : Except OsError Unit} (hpath : files path)
    (bytes : List UInt8) (h : sound s)
    (run : (writeFile (draftPath path) bytes : StateM σ _) s = (result, after)) :
    sound after ∧ (result = .ok () → content after (draftPath path) = some bytes) ∧
      ∀ other, files other → apart other (draftPath path) → content after other = content s other
  /-- Only drafts that have been written are moved. -/
  move {path : String} {s after : σ} {result : Except OsError Unit} {bytes : List UInt8}
    (hpath : files path) (h : sound s) (hdraft : content s (draftPath path) = some bytes)
    (run : (rename (draftPath path) path : StateM σ _) s = (result, after)) :
    sound after ∧ (result = .ok () → content after path = some bytes) ∧
      ∀ other, files other → apart other path → apart other (draftPath path) →
        content after other = content s other
  list (dir : String) : Quiet sound content (listDir dir : StateM σ _)
  ask (address : StoreAddress) (key : String) :
    Quiet sound content (listStore address key : StateM σ _)
  emit (event : MetricEvent) : Quiet sound content (emit event : StateM σ Unit)
  fresh : Quiet sound content (freshId : StateM σ Uuid)
  time : Quiet sound content (currentTime : StateM σ Int64)

namespace FilesLaws

variable {σ : Type} [MonadFileSystem (StateM σ)] [MonadObjectStore (StateM σ)]
  [MonadMetrics (StateM σ)] [MonadFresh (StateM σ)] [MonadClock (StateM σ)]
  {files : String → Prop} (laws : FilesLaws σ files)

/-- Whether replacing one file cannot touch another one. -/
def Clear (path other : String) : Prop :=
  laws.apart path other ∧ laws.apart path (draftPath other)

/-- The promises about one of the files. The others stay as they were at some time. -/
def about {path : String} (hpath : files path) (earlier : σ) : FileLaws σ path where
  sound s := laws.sound s ∧ ∀ other, files other → laws.Clear other path →
    laws.content s other = laws.content earlier other
  content s := laws.content s path
  draft s := laws.content s (draftPath path)
  read h run := by
    obtain ⟨hafter, hsame, hresult⟩ := laws.read hpath h.1 run
    refine ⟨⟨hafter, fun other hother hclear ↦ ?_⟩, congrFun hsame path, hresult⟩
    rw [hsame, h.2 other hother hclear]
  create dir h run := by
    obtain ⟨hafter, hsame⟩ := laws.create dir h.1 run
    refine ⟨hafter, fun other hother hclear ↦ ?_⟩
    rw [hsame other hother, h.2 other hother hclear]
  write bytes h run := by
    obtain ⟨hafter, hdraft, hsame⟩ := laws.write hpath bytes h.1 run
    refine ⟨⟨hafter, fun other hother hclear ↦ ?_⟩, hdraft⟩
    rw [hsame other hother hclear.2, h.2 other hother hclear]
  move h hdraft run := by
    obtain ⟨hafter, hmoved, hsame⟩ := laws.move hpath h.1 hdraft run
    refine ⟨⟨hafter, fun other hother hclear ↦ ?_⟩, hmoved⟩
    rw [hsame other hother hclear.1 hclear.2, h.2 other hother hclear]

theorem sound_about {path : String} (hpath : files path) {s : σ} (h : laws.sound s) :
    (laws.about hpath s).sound s :=
  ⟨h, fun _ _ _ ↦ rfl⟩

/-- Listing a location leaves all files alone. -/
theorem quiet_listing [Url.DomainNames] (location : Location) (directory : String) :
    Quiet laws.sound laws.content (location.listing directory : StateM σ _) := by
  unfold Location.listing measured
  refine Quiet.bind ?_ fun result ↦ ?_
  · split
    · unfold listDisk
      split
      · exact quiet_pure _
      · refine (laws.list _).bind fun listed ↦ ?_
        cases listed <;> exact quiet_pure _
    · exact quiet_pure _
    · unfold listRemote
      split
      · exact quiet_pure _
      · exact (laws.ask _ _).bind fun _ ↦ quiet_pure _
  · cases result with
    | error cause => exact (laws.emit _).bind fun _ ↦ quiet_pure _
    | ok entries => exact (laws.emit _).bind fun _ ↦ quiet_pure _

end FilesLaws

end CommitCoordinator.Storage
