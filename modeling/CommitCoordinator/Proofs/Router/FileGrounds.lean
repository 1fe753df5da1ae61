import CommitCoordinator.Proofs.Failover.Restored
import CommitCoordinator.Proofs.Router.Launching
import CommitCoordinator.Proofs.Storage.Files
import CommitCoordinator.Router.Basic

/-!
# Surroundings made of files

The operators of a router share the file of the catalog, and each of them has a file for its
snapshots. The files support an operator if the catalog and its own snapshots are clear of each
other, and other operators do not matter to it if their files are clear of these two.
-/

namespace CommitCoordinator

open Storage Dialogue

variable {σ : Type} [MonadFileSystem (StateM σ)] [MonadObjectStore (StateM σ)]
  [MonadMetrics (StateM σ)] [MonadFresh (StateM σ)] [MonadClock (StateM σ)]
  {files : String → Prop}

/-- What the files of the catalog and of the snapshots of one table hold. -/
def Grounds.ofFiles (laws : FilesLaws σ files) (catalogPath statePath : String) : Grounds σ where
  sound s := laws.sound s ∧
    ∃ catalog, FileCatalog.held catalogPath (laws.content s catalogPath) = .ok catalog
  catalog s := ((FileCatalog.held catalogPath (laws.content s catalogPath)).toOption).getD .empty
  stored s := (FileStore.loaded statePath (.ok (laws.content s statePath))).toOption

namespace FileGrounds

variable {laws : FilesLaws σ files} {catalogPath statePath path : String} {s after : σ}
  {listing : Listing (StateM σ)} {exchange : Exchange}

theorem catalog_eq {catalog : Catalog}
    (h : FileCatalog.held catalogPath (laws.content s catalogPath) = .ok catalog) :
    (Grounds.ofFiles laws catalogPath statePath).catalog s = catalog := by
  change (FileCatalog.held catalogPath (laws.content s catalogPath)).toOption.getD .empty = catalog
  rw [h]
  rfl

theorem catalog_congr (h : laws.content after catalogPath = laws.content s catalogPath) :
    (Grounds.ofFiles laws catalogPath statePath).catalog after =
      (Grounds.ofFiles laws catalogPath statePath).catalog s := by
  change (FileCatalog.held catalogPath (laws.content after catalogPath)).toOption.getD .empty = _
  rw [h]
  rfl

theorem stored_congr (h : laws.content after statePath = laws.content s statePath) :
    (Grounds.ofFiles laws catalogPath statePath).stored after =
      (Grounds.ofFiles laws catalogPath statePath).stored s := by
  change (FileStore.loaded statePath (.ok (laws.content after statePath))).toOption = _
  rw [h]
  rfl

theorem sound_congr (hsound : (Grounds.ofFiles laws catalogPath statePath).sound s)
    (hafter : laws.sound after)
    (h : laws.content after catalogPath = laws.content s catalogPath) :
    (Grounds.ofFiles laws catalogPath statePath).sound after := by
  obtain ⟨-, catalog, hheld⟩ := hsound
  exact ⟨hafter, catalog, h ▸ hheld⟩

/-- A call that leaves the files alone is honored. -/
theorem honors_of_quiet
    {effect : Option (List Snapshot) → Exchange → Option (List Snapshot) → Prop}
    (hsound : (Grounds.ofFiles laws catalogPath statePath).sound s)
    (hquiet : laws.sound after ∧ laws.content after = laws.content s)
    (hcatalog : exchange.isCatalog = false)
    (heffect : effect ((Grounds.ofFiles laws catalogPath statePath).stored s) exchange
      ((Grounds.ofFiles laws catalogPath statePath).stored s)) :
    (Grounds.ofFiles laws catalogPath statePath).Honors effect s exchange after where
  sound := sound_congr hsound hquiet.1 (congrFun hquiet.2 catalogPath)
  granted := (Catalog.grants_of_elsewhere hcatalog).2
    (catalog_congr (congrFun hquiet.2 catalogPath))
  effect := by
    rw [stored_congr (congrFun hquiet.2 statePath)]
    exact heffect

/-- A call of the catalog is honored if replacing the catalog cannot touch the snapshots. -/
theorem honors_of_catalog
    {effect : Option (List Snapshot) → Exchange → Option (List Snapshot) → Prop}
    (hfile : files catalogPath) (hstate : files statePath)
    (hclear : laws.Clear statePath catalogPath)
    (hsound : (Grounds.ofFiles laws catalogPath statePath).sound s)
    {store : SnapshotStore (StateM σ)}
    (htook : Took (answering ⟨FileCatalog.client catalogPath, listing⟩ store) s exchange after)
    (hcatalog : exchange.isCatalog = true) (hfailure : exchange.isFailure = false)
    (heffect : effect ((Grounds.ofFiles laws catalogPath statePath).stored s) exchange
      ((Grounds.ofFiles laws catalogPath statePath).stored s)) :
    (Grounds.ofFiles laws catalogPath statePath).Honors effect s exchange after := by
  obtain ⟨hbefore, catalog, hheld⟩ := hsound
  obtain ⟨hlookup, happend, hinsert⟩ :=
    FileCatalog.grants (laws.about hfile s) (laws.sound_about hfile hbefore) hheld
  -- the contents of the other files are part of what is sound about the file of the catalog
  have hhonors {next : Catalog} (hgrants : catalog.Grants exchange next)
      (hafter : (laws.about hfile s).sound after)
      (hnow : FileCatalog.held catalogPath (laws.content after catalogPath) = .ok next) :
      (Grounds.ofFiles laws catalogPath statePath).Honors effect s exchange after := by
    refine ⟨⟨hafter.1, next, hnow⟩, ?_, ?_⟩
    · rw [catalog_eq hheld, catalog_eq hnow]
      exact hgrants
    · rw [stored_congr (hafter.2 statePath hstate hclear)]
      exact heffect
  obtain ⟨call, answer⟩ := exchange
  cases call with
  | lookup name =>
    have hfault : ¬FileCatalog.Faulted answer := by
      rintro ⟨path, cause, rfl⟩
      cases hfailure
    have hanswer := hlookup name
    rw [show (FileCatalog.lookup catalogPath name : StateM σ _).run s = (answer, after) from htook]
      at hanswer
    obtain ⟨next, hgrants, hafter, hnow⟩ := hanswer hfault
    exact hhonors hgrants hafter hnow
  | append request keep mode =>
    have hfault : ¬FileCatalog.Faulted answer := by
      rintro ⟨path, cause, rfl⟩
      cases hfailure
    have hanswer := happend request keep mode
    rw [show (FileCatalog.append catalogPath request keep mode : StateM σ _).run s =
      (answer, after) from htook] at hanswer
    obtain ⟨next, hgrants, hafter, hnow⟩ := hanswer hfault
    exact hhonors hgrants hafter hnow
  | insert manifests =>
    have hfault : ¬FileCatalog.Faulted answer := by
      rintro ⟨path, cause, rfl⟩
      cases hfailure
    have hanswer := hinsert manifests
    rw [show (FileCatalog.insert catalogPath manifests : StateM σ _).run s =
      (answer, after) from htook] at hanswer
    obtain ⟨next, hgrants, hafter, hnow⟩ := hanswer hfault
    exact hhonors hgrants hafter hnow
  | _ => cases hcatalog

/-- Snapshots that were stored without an error are what the file holds, and the files that are
clear of it stay as they are. -/
theorem content_of_store (hpath : files path) (hsound : laws.sound s) {stored : List Snapshot}
    (hrun : (FileStore.store path stored : StateM σ _) s = (.ok (), after)) :
    laws.sound after ∧ laws.content after path = some (FileStore.encode stored) ∧
      ∀ other, files other → laws.Clear other path →
        laws.content after other = laws.content s other := by
  let size : MetricEvent := .checkpointStateSize (FileStore.encode stored).length
  obtain ⟨hemitted, hsame⟩ := laws.emit size s hsound
  obtain ⟨written, hwritten, ⟨hreplace, hcontent⟩ | ⟨fault, hreplace⟩⟩ :=
    (laws.about hpath ((emit size : StateM σ Unit) s).2).run_replaceFile
      (laws.sound_about hpath hemitted) (FileStore.encode stored)
  · cases (FileStore.run_store hreplace).symm.trans hrun
    refine ⟨hwritten.1, hcontent, fun other hother hclear ↦ ?_⟩
    rw [hwritten.2 other hother hclear, hsame]
  · cases (FileStore.run_store hreplace).symm.trans hrun

/-- Loading leaves the files alone, and what is loaded without an error is what the file holds. -/
theorem loaded_of_load (hpath : files path) (hsound : laws.sound s)
    {answer : Except StateError (List Snapshot)}
    (hrun : (FileStore.load path : StateM σ _) s = (answer, after)) :
    (laws.sound after ∧ laws.content after = laws.content s) ∧
      ∀ stored, answer = .ok stored →
        FileStore.loaded path (.ok (laws.content s path)) = .ok stored := by
  cases hread : (readFile path : StateM σ _) s with
  | mk result read =>
    obtain ⟨hafter, hsame, hok, hnone⟩ := laws.read hpath hsound hread
    cases (FileStore.run_load (run_readIfPresent_eq hread)).symm.trans hrun
    refine ⟨⟨hafter, hsame⟩, fun stored hstored ↦ ?_⟩
    cases result with
    | ok bytes => rwa [hok bytes rfl]
    | error cause =>
      cases cause with
      | notFound => rwa [hnone rfl]
      | _ => cases hstored

/-- All calls but those that write to the store leave the snapshots alone. -/
theorem honors_of_not_store
    {effect : Option (List Snapshot) → Exchange → Option (List Snapshot) → Prop}
    (hfile : files catalogPath) (hstate : files statePath) (hpath : files path)
    (hclear : laws.Clear statePath catalogPath)
    (hlisting : ∀ directory, Quiet laws.sound laws.content (listing directory))
    (hsound : (Grounds.ofFiles laws catalogPath statePath).sound s)
    (htook : Took (answering ⟨FileCatalog.client catalogPath, listing⟩ (fileStore path)) s exchange
      after)
    (hfailure : exchange.isFailure = false) (hstore : exchange.isStore = false)
    (heffect : effect ((Grounds.ofFiles laws catalogPath statePath).stored s) exchange
      ((Grounds.ofFiles laws catalogPath statePath).stored s)) :
    (Grounds.ofFiles laws catalogPath statePath).Honors effect s exchange after := by
  cases hcatalog : exchange.isCatalog with
  | true =>
    exact honors_of_catalog hfile hstate hclear hsound htook hcatalog hfailure heffect
  | false =>
    refine honors_of_quiet hsound ?_ hcatalog heffect
    obtain ⟨call, answer⟩ := exchange
    -- the state after the call is that of the action that answers it
    have hafter {action : StateM σ call.Answer} (hquiet : Quiet laws.sound laws.content action)
        (hrun : action s = (answer, after)) :
        laws.sound after ∧ laws.content after = laws.content s := by
      have hsame := hquiet s hsound.1
      rwa [hrun] at hsame
    cases call with
    | list directory => exact hafter (hlisting directory) htook
    | load => exact (loaded_of_load hpath hsound.1 htook).1
    | emit event => exact hafter (laws.emit event) htook
    | freshId => exact hafter laws.fresh htook
    | currentTime => exact hafter laws.time htook
    | lookup name => cases hcatalog
    | append request keep mode => cases hcatalog
    | insert manifests => cases hcatalog
    | store snapshots => cases hstore

/-- Snapshots that are stored leave the catalog alone if they are clear of it. -/
theorem honors_of_store
    {effect : Option (List Snapshot) → Exchange → Option (List Snapshot) → Prop}
    (hfile : files catalogPath) (hpath : files path) (hcatalog : laws.Clear catalogPath path)
    (hsound : (Grounds.ofFiles laws catalogPath statePath).sound s)
    (htook : Took (answering ⟨FileCatalog.client catalogPath, listing⟩ (fileStore path)) s exchange
      after)
    (hfailure : exchange.isFailure = false) (hstore : exchange.isStore = true)
    (heffect : ∀ stored, exchange = ⟨.store stored, .ok ()⟩ →
      laws.content after path = some (FileStore.encode stored) →
      (∀ other, files other → laws.Clear other path →
        laws.content after other = laws.content s other) →
      effect ((Grounds.ofFiles laws catalogPath statePath).stored s) exchange
        ((Grounds.ofFiles laws catalogPath statePath).stored after)) :
    (Grounds.ofFiles laws catalogPath statePath).Honors effect s exchange after := by
  obtain ⟨call, answer⟩ := exchange
  cases call with
  | store snapshots =>
    cases answer with
    | error cause => cases hfailure
    | ok =>
      obtain ⟨hafter, hcontent, hsame⟩ := content_of_store hpath hsound.1 htook
      have hkept := hsame catalogPath hfile hcatalog
      exact ⟨sound_congr hsound hafter hkept, catalog_congr hkept,
        heffect snapshots rfl hcontent hsame⟩
  | _ => cases hstore

/-- An operator can work with the catalog and its own snapshots if they are clear of each other. -/
theorem supports (hfile : files catalogPath) (hstate : files statePath)
    (hclear : laws.Clear statePath catalogPath) (hcatalog : laws.Clear catalogPath statePath)
    (hlisting : ∀ directory, Quiet laws.sound laws.content (listing directory)) :
    (Grounds.ofFiles laws catalogPath statePath).Supports
      ⟨FileCatalog.client catalogPath, listing⟩ (fileStore statePath) := by
  intro s after exchange hsound htook hfailure
  cases hstore : exchange.isStore with
  | true =>
    refine honors_of_store hfile hstate hcatalog hsound htook hfailure hstore ?_
    rintro stored rfl hcontent -
    change (FileStore.loaded statePath (.ok (laws.content after statePath))).toOption = some stored
    rw [hcontent, FileStore.loaded, FileStore.decode_encode]
    rfl
  | false =>
    refine honors_of_not_store hfile hstate hstate hclear hlisting hsound htook hfailure hstore ?_
    obtain ⟨call, answer⟩ := exchange
    cases call with
    | load =>
      cases answer with
      | error cause => cases hfailure
      | ok stored =>
        refine ⟨?_, rfl⟩
        change (FileStore.loaded statePath (.ok (laws.content s statePath))).toOption = some stored
        rw [(loaded_of_load hstate hsound.1 htook).2 stored rfl]
        rfl
    | store snapshots => cases hstore
    | _ => exact rfl

/-- Another operator does not matter if its snapshots are clear of the catalog and the snapshots of
the table are clear of those. -/
theorem admits (hfile : files catalogPath) (hstate : files statePath) (hpath : files path)
    (hclear : laws.Clear statePath catalogPath) (hcatalog : laws.Clear catalogPath path)
    (hother : laws.Clear statePath path)
    (hlisting : ∀ directory, Quiet laws.sound laws.content (listing directory)) :
    (Grounds.ofFiles laws catalogPath statePath).Admits
      ⟨FileCatalog.client catalogPath, listing⟩ (fileStore path) := by
  intro s after exchange hsound htook hfailure
  cases hstore : exchange.isStore with
  | true =>
    exact honors_of_store hfile hpath hcatalog hsound htook hfailure hstore
      fun _ _ _ hsame ↦ stored_congr (hsame statePath hstate hother)
  | false =>
    exact honors_of_not_store hfile hstate hpath hclear hlisting hsound htook hfailure hstore rfl

end FileGrounds

end CommitCoordinator
