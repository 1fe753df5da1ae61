import CommitCoordinator.Machine
import CommitCoordinator.Proofs.Config.Merging
import CommitCoordinator.Proofs.Effect.Reading
import CommitCoordinator.Proofs.Storage.Hosting

/-!
# Configurations from files and directories

A directory stands for the files in it that are named as configurations, in the order of their
names. What sources give depends on the files alone that they stand for: they give a configuration
if each file does, no two files have a table in common, and the tables and settings that result are
valid.
-/

namespace CommitCoordinator

open Storage Template

section Sources

variable {σ : Type} [MonadFileSystem (StateM σ)]

/-- Whether looking at files leaves a state as it is. -/
structure Storage.AtRest (s : σ) : Prop where
  readFile (path : String) : ((readFile path : StateM σ _) s).2 = s
  isFile (path : String) : ((isFile path : StateM σ _) s).2 = s
  listDir (path : String) : ((listDir path : StateM σ _) s).2 = s

namespace ConfigSource

variable (s : σ)

/-- The paths of the configurations in a directory in the order of their names. -/
def yamlFiles (dir : String) (names : List String) : List String :=
  ((names.mergeSort (· ≤ ·)).map (childPath dir)).filter fun path ↦
    hasYamlExtension path && ((isFile path : StateM σ _) s).1

/-- The files that a source stands for. -/
def files : ConfigSource → Except OsError (List String)
  | .file path => .ok [path]
  | .dir path => ((listDir path : StateM σ _) s).1.map fun listed ↦
      yamlFiles s path (listed.map Listed.name)

/-- The files that sources stand for, one source after the other. -/
def allFiles : List ConfigSource → Except OsError (List String)
  | [] => .ok []
  | source :: rest => do
    return (← source.files s) ++ (← allFiles rest)

theorem allFiles_append (front back : List ConfigSource) :
    allFiles s (front ++ back) = do return (← allFiles s front) ++ (← allFiles s back) := by
  induction front with
  | nil =>
    change allFiles s back = (do return [] ++ (← allFiles s back))
    cases allFiles s back <;> rfl
  | cons source rest ih =>
    rw [List.cons_append, allFiles, allFiles, ih]
    cases source.files s with
    | error cause => rfl
    | ok files =>
      cases allFiles s rest with
      | error cause => rfl
      | ok others =>
        cases allFiles s back with
        | error cause => rfl
        | ok more => exact congrArg Except.ok (List.append_assoc files others more).symm

theorem allFiles_map_file (files : List String) :
    allFiles s (files.map .file) = .ok files := by
  induction files with
  | nil => rfl
  | cons file rest ih => rw [List.map_cons, allFiles, ih]; rfl

variable {s} in
/-- A directory that can be listed stands for what its files stand for one by one. -/
theorem allFiles_regroup {dir : String} {listed : List Listed}
    (h : ((listDir dir : StateM σ _) s).1 = .ok listed) (front back : List ConfigSource) :
    allFiles s (front ++ .dir dir :: back) = allFiles s
      (front ++ ((yamlFiles s dir (listed.map Listed.name)).map .file ++ back)) := by
  have hdir : files s (.dir dir) = .ok (yamlFiles s dir (listed.map Listed.name)) := by
    rw [files, h]
    rfl
  rw [allFiles_append, allFiles_append, allFiles_append, allFiles_map_file, allFiles, hdir]

end ConfigSource

namespace Config

/-- Whether a file is named as a configuration and can be read, all variables in it have a value,
and the text that results is read as a value. -/
structure ReadBy {α : Type} (codec : Data.Codec α) (env : Environment) (s : σ) (path : String)
    (value : α) : Prop where
  extension : hasYamlExtension path = true
  text : ∃ bytes, ((readFile path : StateM σ _) s).1 = .ok bytes ∧ Text.utf8Fault? bytes = none ∧
    (expand env (String.ofList (Text.decodeLossy bytes))).unset = [] ∧
      Yaml.decodeText codec fields.names
        (expand env (String.ofList (Text.decodeLossy bytes))).text = .ok value

/-- Whether a file gives a configuration. -/
abbrev DefinedBy (env : Environment) (s : σ) (path : String) (config : Config) : Prop :=
  ReadBy codec env s path config

theorem ofText_eq_ok_iff {env : Environment} {text : String} {config : Config} :
    ofText env text = .ok config ↔ (expand env text).unset = [] ∧
      Yaml.decodeText codec fields.names (expand env text).text = .ok config := by
  unfold ofText
  dsimp only
  split
  · next hunset =>
    rw [and_iff_right hunset]
    cases Yaml.decodeText codec fields.names (expand env text).text <;> simp [Except.mapError]
  · next hunset => simp [hunset]

/-- The text of the bytes of a file. -/
def textOf : Except OsError (List UInt8) → Except ConfigError String
  | .error cause => .error (.unreadableFile cause)
  | .ok bytes =>
    match Text.utf8Fault? bytes with
    | some _ => .error (.unreadableFile .notText)
    | none => .ok (String.ofList (Text.decodeLossy bytes))

theorem textOf_eq_ok_iff {content : Except OsError (List UInt8)} {text : String} :
    textOf content = .ok text ↔ ∃ bytes, content = .ok bytes ∧ Text.utf8Fault? bytes = none ∧
      String.ofList (Text.decodeLossy bytes) = text := by
  cases content with
  | error cause => simp [textOf]
  | ok bytes =>
    unfold textOf
    cases hfault : Text.utf8Fault? bytes <;> simp [hfault]

theorem validated_eq_ok_iff {config valid : Config} :
    config.validated = .ok valid ↔ config.validate = .ok () ∧ config = valid := by
  unfold validated
  rw [except_bind_eq_ok]
  constructor
  · rintro ⟨_, hvalid, h⟩
    exact ⟨hvalid, Except.ok.inj h⟩
  · rintro ⟨hvalid, rfl⟩
    exact ⟨(), hvalid, rfl⟩

section Runs

variable {env : Environment} {s : σ} (hrest : AtRest s)

include hrest

theorem run_readText (path : String) :
    (readText path : StateM σ _) s = (textOf ((readFile path : StateM σ _) s).1, s) := by
  unfold readText
  rw [state_bind, hrest.readFile]
  cases ((readFile path : StateM σ _) s).1 with
  | error cause => rfl
  | ok bytes =>
    unfold textOf
    dsimp only
    cases Text.utf8Fault? bytes <;> rfl

theorem run_loadFile (path : String) :
    ((loadFile env path : StateM σ _) s).2 = s ∧
      ∀ config, ((loadFile env path : StateM σ _) s).1 = .ok config ↔
        DefinedBy env s path config := by
  unfold loadFile
  split
  · next hextension =>
    rw [state_bind, run_readText hrest]
    refine ⟨rfl, fun config ↦ ?_⟩
    change (textOf ((readFile path : StateM σ _) s).1).bind (ofText env) = _ ↔ _
    constructor
    · intro h
      obtain ⟨text, htext, hconfig⟩ := except_bind_eq_ok.1 h
      obtain ⟨bytes, hbytes, hfault, rfl⟩ := textOf_eq_ok_iff.1 htext
      exact ⟨hextension, bytes, hbytes, hfault, ofText_eq_ok_iff.1 hconfig⟩
    · rintro ⟨-, bytes, hbytes, hfault, hconfig⟩
      rw [textOf_eq_ok_iff.2 ⟨bytes, hbytes, hfault, rfl⟩]
      exact ofText_eq_ok_iff.2 hconfig
  · next hextension =>
    refine ⟨rfl, fun config ↦ ⟨fun h ↦ ?_, fun h ↦ absurd h.extension hextension⟩⟩
    cases h

theorem loaded_eq_iff {files : List String} {configs : List Config} :
    files.map (fun path ↦ ((loadFile env path : StateM σ _) s).1) = configs.map .ok ↔
      List.Forall₂ (DefinedBy env s) files configs := by
  rw [← List.forall₂_eq_eq_eq, List.forall₂_map_left_iff, List.forall₂_map_right_iff]
  simp only [(run_loadFile hrest _).2]

theorem run_loadFiles (files : List String) :
    ((loadFiles env files : StateM σ _) s).2 = s ∧
      ∀ part, ((loadFiles env files : StateM σ _) s).1 = .ok part ↔
        ∃ configs, List.Forall₂ (DefinedBy env s) files configs ∧ empty.IsMerged configs part := by
  have hfile (path : String) :
      ((do return (path, ← loadFile env path)) : StateM σ (String × Except ConfigError Config)) s =
        ((path, ((loadFile env path : StateM σ _) s).1), s) := by
    rw [state_bind, (run_loadFile hrest path).1]
    rfl
  unfold loadFiles
  rw [state_bind, mapM_of_readings hfile]
  refine ⟨rfl, fun part ↦ ?_⟩
  change combine _ = .ok part ↔ _
  rw [combine_eq_ok_iff]
  simp only [List.map_map, Function.comp_def, loaded_eq_iff hrest]

theorem run_filesOf (dir : String) (names : List String) :
    (filesOf dir names : StateM σ _) s = (ConfigSource.yamlFiles s dir names, s) := by
  refine filterM_of_readings (fun path ↦ ?_) _
  unfold isSourceFile
  cases hasYamlExtension path with
  | true => exact Prod.ext (Bool.true_and _).symm (hrest.isFile path)
  | false => rfl

theorem run_loadDir (dir : String) :
    (loadDir env dir : StateM σ _) s =
      match ((listDir dir : StateM σ _) s).1 with
      | .error cause => (.error (.unreadableDirectory dir cause), s)
      | .ok listed => (loadFiles env (ConfigSource.yamlFiles s dir (listed.map Listed.name)) :
          StateM σ _) s := by
  unfold loadDir
  rw [state_bind, hrest.listDir]
  cases ((listDir dir : StateM σ _) s).1 with
  | error cause => rfl
  | ok listed =>
    dsimp only
    rw [state_bind, run_filesOf hrest]

/-- A source is merged as the files are that it stands for. -/
theorem run_loadSource (source : ConfigSource) :
    ((loadSource env source : StateM σ _) s).2 = s ∧
      ∀ base merged : Config, (∃ part, ((loadSource env source : StateM σ _) s).1 = .ok part ∧
          base.merge part = .ok merged) ↔
        ∃ files configs, source.files s = .ok files ∧
          List.Forall₂ (DefinedBy env s) files configs ∧ base.IsMerged configs merged := by
  cases source with
  | file path =>
    refine ⟨(run_loadFile hrest path).1, fun base merged ↦ ?_⟩
    simp only [loadSource, (run_loadFile hrest path).2, merge_eq_ok_iff]
    constructor
    · rintro ⟨part, hpart, h⟩
      exact ⟨[path], [part], rfl, .cons hpart .nil, h⟩
    · rintro ⟨files, configs, hfiles, hconfigs, h⟩
      cases hfiles
      obtain ⟨part, _, hpart, ⟨⟩, rfl⟩ := List.forall₂_cons_left_iff.1 hconfigs
      exact ⟨part, hpart, h⟩
  | dir dir =>
    rw [loadSource, run_loadDir hrest, ConfigSource.files]
    cases ((listDir dir : StateM σ _) s).1 with
    | error cause =>
      refine ⟨rfl, fun base merged ↦ ⟨?_, ?_⟩⟩
      · rintro ⟨part, hpart, -⟩
        cases hpart
      · rintro ⟨files, configs, hfiles, -⟩
        cases hfiles
    | ok listed =>
      refine ⟨(run_loadFiles hrest _).1, fun base merged ↦ ?_⟩
      simp only [(run_loadFiles hrest _).2]
      constructor
      · rintro ⟨part, ⟨configs, hconfigs, hpart⟩, h⟩
        exact ⟨_, configs, rfl, hconfigs, IsMerged.group_iff.2 ⟨part, hpart, h⟩⟩
      · rintro ⟨files, configs, hfiles, hconfigs, h⟩
        cases hfiles
        obtain ⟨part, hpart, h⟩ := IsMerged.group_iff.1 h
        exact ⟨part, ⟨configs, hconfigs, hpart⟩, h⟩

/-- Sources are merged as the files are that they stand for. -/
theorem loaded_sources_iff (sources : List ConfigSource) (base merged : Config) :
    (∃ parts, sources.map (fun source ↦ ((loadSource env source : StateM σ _) s).1) =
        parts.map .ok ∧ base.IsMerged parts merged) ↔
      ∃ files configs, ConfigSource.allFiles s sources = .ok files ∧
        List.Forall₂ (DefinedBy env s) files configs ∧ base.IsMerged configs merged := by
  induction sources generalizing base with
  | nil =>
    constructor
    · rintro ⟨parts, hparts, h⟩
      obtain rfl := List.map_eq_nil_iff.1 hparts.symm
      exact ⟨[], [], rfl, .nil, h⟩
    · rintro ⟨files, configs, hfiles, hconfigs, h⟩
      cases hfiles
      cases hconfigs
      exact ⟨[], rfl, h⟩
  | cons source rest ih =>
    constructor
    · rintro ⟨_ | ⟨part, parts⟩, hparts, h⟩
      · cases hparts
      · obtain ⟨hpart, hrest'⟩ := List.cons.inj hparts
        obtain ⟨next, hnext, h⟩ := IsMerged.cons_iff.1 h
        obtain ⟨files, configs, hfiles, hconfigs, hmerged⟩ :=
          ((run_loadSource hrest source).2 base next).1 ⟨part, hpart, hnext⟩
        obtain ⟨others, more, hothers, hmore, h⟩ := (ih next).1 ⟨parts, hrest', h⟩
        refine ⟨files ++ others, configs ++ more, ?_, List.rel_append hconfigs hmore,
          IsMerged.append_iff.2 ⟨next, hmerged, h⟩⟩
        rw [ConfigSource.allFiles, hfiles, hothers]
        rfl
    · rintro ⟨all, configs, hall, hconfigs, h⟩
      obtain ⟨files, hfiles, hall⟩ := except_bind_eq_ok.1 hall
      obtain ⟨others, hothers, hall⟩ := except_bind_eq_ok.1 hall
      cases hall
      obtain ⟨first, more, rfl, hfirst, hmore⟩ : ∃ first more, configs = first ++ more ∧
          List.Forall₂ (DefinedBy env s) files first ∧
            List.Forall₂ (DefinedBy env s) others more :=
        ⟨configs.take files.length, configs.drop files.length, (List.take_append_drop _ _).symm,
          (List.forall₂_take_append _ _ _ hconfigs.flip).flip,
          (List.forall₂_drop_append _ _ _ hconfigs.flip).flip⟩
      obtain ⟨next, hmerged, h⟩ := IsMerged.append_iff.1 h
      obtain ⟨part, hpart, hnext⟩ :=
        ((run_loadSource hrest source).2 base next).2 ⟨files, first, hfiles, hfirst, hmerged⟩
      obtain ⟨parts, hparts, h⟩ := (ih next).2 ⟨others, more, hothers, hmore, h⟩
      refine ⟨part :: parts, ?_, IsMerged.cons_iff.2 ⟨next, hnext, h⟩⟩
      rw [List.map_cons, List.map_cons, hpart, hparts]

/-- Sources give a configuration if their files are merged to a valid one. -/
theorem ofSources_eq_ok_iff {sources : List ConfigSource} {config : Config} :
    ((ofSources env sources : StateM σ _) s).1 = .ok config ↔
      ∃ files configs, ConfigSource.allFiles s sources = .ok files ∧
        List.Forall₂ (DefinedBy env s) files configs ∧ empty.IsMerged configs config ∧
          config.validate = .ok () := by
  have hsource (source : ConfigSource) :
      ((do return (source.path, ← loadSource env source)) :
        StateM σ (String × Except ConfigError Config)) s =
          ((source.path, ((loadSource env source : StateM σ _) s).1), s) := by
    rw [state_bind, (run_loadSource hrest source).1]
    rfl
  unfold ofSources
  rw [state_bind, mapM_of_readings hsource]
  change combine _ >>= validated = _ ↔ _
  rw [except_bind_eq_ok]
  simp only [combine_eq_ok_iff, List.map_map, Function.comp_def, validated_eq_ok_iff,
    loaded_sources_iff hrest]
  constructor
  · rintro ⟨merged, ⟨files, configs, hfiles, hconfigs, h⟩, hvalid, rfl⟩
    exact ⟨files, configs, hfiles, hconfigs, h, hvalid⟩
  · rintro ⟨files, configs, hfiles, hconfigs, h, hvalid⟩
    exact ⟨config, ⟨files, configs, hfiles, hconfigs, h⟩, hvalid, rfl⟩

/-- What a single file of any name gives. -/
theorem ofFile_eq_ok_iff {path : String} (hextension : hasYamlExtension path = true)
    {config : Config} :
    ((ofFile env path : StateM σ _) s).1 = .ok config ↔
      DefinedBy env s path config ∧ config.validate = .ok () := by
  unfold ofFile
  rw [state_bind, run_readText hrest]
  change textOf _ >>= (fun text ↦ ofText env text >>= validated) = _ ↔ _
  rw [← (run_loadFile hrest path).2, loadFile, if_pos hextension, state_bind, run_readText hrest]
  change _ ↔ textOf _ >>= ofText env = _ ∧ _
  simp only [except_bind_eq_ok, validated_eq_ok_iff]
  constructor
  · rintro ⟨text, htext, part, hpart, hvalid, rfl⟩
    exact ⟨⟨text, htext, hpart⟩, hvalid⟩
  · rintro ⟨⟨text, htext, hpart⟩, hvalid⟩
    exact ⟨text, htext, config, hpart, hvalid, rfl⟩

/-- A single file as a source gives what the file gives, the default paths spelled as such. -/
theorem ofSources_file_eq_ok_iff {path : String} (hextension : hasYamlExtension path = true)
    {config : Config} :
    ((ofSources env [.file path] : StateM σ _) s).1 = .ok config ↔
      ((ofFile env path : StateM σ _) s).1.map respelled = .ok config := by
  have hmap : ((ofFile env path : StateM σ _) s).1.map respelled = .ok config ↔
      ∃ part, ((ofFile env path : StateM σ _) s).1 = .ok part ∧ part.respelled = config := by
    cases ((ofFile env path : StateM σ _) s).1 <;> simp [Except.map]
  rw [hmap, ofSources_eq_ok_iff hrest]
  simp only [ofFile_eq_ok_iff hrest hextension, isMerged_empty_iff]
  constructor
  · rintro ⟨files, configs, hfiles, hconfigs, ⟨hdisjoint, rfl⟩, hvalid⟩
    cases hfiles
    obtain ⟨part, _, hpart, ⟨⟩, rfl⟩ := List.forall₂_cons_left_iff.1 hconfigs
    rw [joined_singleton, validate_respelled] at hvalid
    exact ⟨part, ⟨hpart, hvalid⟩, (joined_singleton part hdisjoint).symm⟩
  · rintro ⟨part, ⟨hpart, hvalid⟩, rfl⟩
    exact ⟨[path], [part], rfl, .cons hpart .nil,
      ⟨List.pairwise_singleton _ _, (joined_singleton part _).symm⟩,
      (validate_respelled part).trans hvalid⟩

end Runs

end Config

/-! ## The same files in other sources -/

theorem toOption_eq_of_iff {ε ε' α : Type} {x : Except ε α} {y : Except ε' α}
    (h : ∀ value, x = .ok value ↔ y = .ok value) : x.toOption = y.toOption := by
  cases x with
  | ok value => rw [(h value).1 rfl]; rfl
  | error e =>
    cases y with
    | ok value => cases (h value).2 rfl
    | error e' => rfl

namespace Config

/-- What a configuration is made of are files. A directory may be replaced by the files in it, and
a single file gives what it gives when it is loaded alone, with the default paths spelled as
such. Sources give a configuration exactly if all directories can be listed, each file gives one,
no two files have a table in common and the result is valid; it has the tables of the files, one
file after the other. -/
theorem sources_are_their_files {s : σ} (hrest : AtRest s) (env : Environment) :
    (∀ (front : List ConfigSource) (dir : String) (back : List ConfigSource) (listed : List Listed),
      ((listDir dir : StateM σ _) s).1 = .ok listed →
        ((ofSources env (front ++ .dir dir :: back) : StateM σ _) s).1.toOption =
          ((ofSources env (front ++
            ((ConfigSource.yamlFiles s dir (listed.map Listed.name)).map .file ++ back)) :
              StateM σ _) s).1.toOption) ∧
    (∀ path, hasYamlExtension path = true →
      ((ofSources env [.file path] : StateM σ _) s).1.toOption =
        ((ofFile env path : StateM σ _) s).1.toOption.map respelled) ∧
    ∀ (sources : List ConfigSource) (config : Config),
      ((ofSources env sources : StateM σ _) s).1 = .ok config ↔
        ∃ files configs, ConfigSource.allFiles s sources = .ok files ∧
          List.Forall₂ (DefinedBy env s) files configs ∧
          ∃ hdisjoint, config = joined configs hdisjoint ∧ config.validate = .ok () := by
  refine ⟨fun front dir back listed hlisted ↦ ?_, fun path hextension ↦ ?_,
    fun sources config ↦ ?_⟩
  · refine toOption_eq_of_iff fun config ↦ ?_
    rw [ofSources_eq_ok_iff hrest, ofSources_eq_ok_iff hrest,
      ConfigSource.allFiles_regroup hlisted]
  · rw [toOption_eq_of_iff fun config ↦ ofSources_file_eq_ok_iff hrest hextension]
    cases ((ofFile env path : StateM σ _) s).1 <;> rfl
  · rw [ofSources_eq_ok_iff hrest]
    simp only [isMerged_empty_iff]
    constructor
    · rintro ⟨files, configs, hfiles, hconfigs, ⟨hdisjoint, hconfig⟩, hvalid⟩
      exact ⟨files, configs, hfiles, hconfigs, hdisjoint, hconfig, hvalid⟩
    · rintro ⟨files, configs, hfiles, hconfigs, hdisjoint, hconfig, hvalid⟩
      exact ⟨files, configs, hfiles, hconfigs, ⟨hdisjoint, hconfig⟩, hvalid⟩

end Config

end Sources

/-! ## A directory and a file beside it -/

theorem atRest_machine (machine : Machine) : AtRest machine :=
  ⟨fun _ ↦ rfl, fun _ ↦ rfl, fun _ ↦ rfl⟩

def asciiFile (text : String) : Node :=
  .file (.bytes (text.toList.map fun c ↦ c.toNat.toUInt8))

theorem asciiFile_ne_link (text target : String) : asciiFile text ≠ .link target :=
  nofun

section Reading

variable {machine : Machine} (hfree : machine.files.LinkFree) (path : String) (route : Route)
  (text : String)
  (h : FileTree.Usable path ∧
    machine.files.stroll (machine.files.start path) (FileTree.pathParts path) =
      .ok (.found route (asciiFile text)))

include hfree h

/-- A file that is found is read and known as a file. -/
theorem read_asciiFile : ((isFile path : MachineM _) machine).1 = true ∧
    ((readFile path : MachineM _) machine).1 = .ok (text.toList.map fun c ↦ c.toNat.toUInt8) := by
  have hresolve : machine.files.resolve true path = .ok (.found route (asciiFile text)) :=
    hfree.resolve_eq_ok.2 h
  change machine.files.isFileAt path = true ∧ machine.files.read path = _
  rw [FileTree.isFileAt, FileTree.read, hresolve]
  exact ⟨rfl, rfl⟩

theorem Config.readBy_asciiFile {α : Type} {codec : Data.Codec α} {value : α}
    (hextension : hasYamlExtension path = true)
    (htext : Text.utf8Fault? (text.toList.map fun c ↦ c.toNat.toUInt8) = none ∧
      String.ofList (Text.decodeLossy (text.toList.map fun c ↦ c.toNat.toUInt8)) = text)
    (hvalue : (expand (fun _ ↦ none) text).unset = [] ∧
      Yaml.decodeText codec fields.names (expand (fun _ ↦ none) text).text = .ok value) :
    ReadBy codec (fun _ ↦ none) machine path value := by
  refine ⟨hextension, _, (read_asciiFile hfree path route text h).2, htext.1, ?_⟩
  rw [htext.2]
  exact hvalue

end Reading

/-- A directory with two configurations and other text, and a configuration at the top that names
the default path of the catalog with a slash behind it. -/
def layeredTree : FileTree :=
  ((((((FileTree.empty []).insertNode ["conf"] .dir).insertNode ["conf", "b.yaml"]
    (asciiFile "tables: {b: {location_path: /b}}")).insertNode ["conf", "notes.txt"]
      (asciiFile "b comes second")).insertNode ["conf", "a.yml"]
        (asciiFile "tables: {a: {location_path: /a}}")).insertNode ["sink.yaml"]
          (asciiFile "catalog: {path: soulsink-catalog.json/}"))

def layeredMachine : Machine :=
  ⟨layeredTree, .empty, 0, 0⟩

theorem linkFree_layered : layeredMachine.files.LinkFree := by
  have hdir (target : String) : Node.dir ≠ .link target := nofun
  have hfile := asciiFile_ne_link
  exact ((((FileTree.linkFree_empty.insertNode _ hdir).insertNode _ (hfile _)).insertNode _
    (hfile _)).insertNode _ (hfile _)).insertNode _ (hfile _)

theorem listDir_layered : ((listDir "/conf" : MachineM _) layeredMachine).1 =
    .ok [⟨"b.yaml", false, 32⟩, ⟨"notes.txt", false, 14⟩, ⟨"a.yml", false, 32⟩] := by
  have hresolve : layeredTree.resolve true "/conf" = .ok (.found ["conf"] .dir) :=
    linkFree_layered.resolve_eq_ok.2 (by decide +kernel)
  change layeredTree.list "/conf" = _
  rw [FileTree.list, hresolve]
  decide +kernel

namespace Config

/-- A configuration of one table with all else at its defaults. -/
def ofTable (key location : String) : Config :=
  { empty with tables := .ofList [(⟨key⟩, ⟨.ofLocation location, none, false, .empty⟩)] }

theorem yamlFiles_layered : ConfigSource.yamlFiles layeredMachine "/conf"
    ["b.yaml", "notes.txt", "a.yml"] = ["/conf/a.yml", "/conf/b.yaml"] := by
  have hsorted : (["b.yaml", "notes.txt", "a.yml"].mergeSort (· ≤ ·)).map (childPath "/conf") =
      ["/conf/a.yml", "/conf/b.yaml", "/conf/notes.txt"] := by
    simp +decide [List.mergeSort, List.MergeSort.Internal.splitInTwo]
  have hfirst := (read_asciiFile linkFree_layered "/conf/a.yml" ["conf", "a.yml"]
    "tables: {a: {location_path: /a}}"
    (by decide +kernel)).1
  have hsecond := (read_asciiFile linkFree_layered "/conf/b.yaml" ["conf", "b.yaml"]
    "tables: {b: {location_path: /b}}"
    (by decide +kernel)).1
  have hyaml : hasYamlExtension "/conf/a.yml" = true ∧ hasYamlExtension "/conf/b.yaml" = true ∧
      hasYamlExtension "/conf/notes.txt" = false := by
    decide +kernel
  rw [ConfigSource.yamlFiles, hsorted]
  simp [hyaml, hfirst, hsecond]

/-- The configuration that names the default path of the catalog in another spelling. -/
def slashed : Config :=
  { empty with catalogPath := "soulsink-catalog.json/" }

theorem definedBy_sink : DefinedBy (fun _ ↦ none) layeredMachine "/sink.yaml" slashed :=
  readBy_asciiFile linkFree_layered "/sink.yaml" ["sink.yaml"]
    "catalog: {path: soulsink-catalog.json/}"
    (by decide +kernel) (by decide +kernel) (by decide +kernel) (by decide +kernel)

theorem sources_are_their_files_layered :
    ((ofSources (fun _ ↦ none) [.file "/sink.yaml", .dir "/conf"] : MachineM _)
        layeredMachine).1.toOption =
      ((ofSources (fun _ ↦ none)
        [.file "/sink.yaml", .file "/conf/a.yml", .file "/conf/b.yaml"] : MachineM _)
          layeredMachine).1.toOption ∧
    ∃ hdisjoint, ((ofSources (fun _ ↦ none) [.file "/sink.yaml", .dir "/conf"] : MachineM _)
        layeredMachine).1 =
      .ok (joined [slashed, ofTable "a" "/a", ofTable "b" "/b"] hdisjoint) := by
  obtain ⟨hregroup, -, hsources⟩ :=
    sources_are_their_files (atRest_machine layeredMachine) fun _ ↦ none
  have hfirst : DefinedBy (fun _ ↦ none) layeredMachine "/conf/a.yml" (ofTable "a" "/a") :=
    readBy_asciiFile linkFree_layered "/conf/a.yml" ["conf", "a.yml"]
      "tables: {a: {location_path: /a}}"
      (by decide +kernel) (by decide +kernel) (by decide +kernel) (by decide +kernel)
  have hsecond : DefinedBy (fun _ ↦ none) layeredMachine "/conf/b.yaml" (ofTable "b" "/b") :=
    readBy_asciiFile linkFree_layered "/conf/b.yaml" ["conf", "b.yaml"]
      "tables: {b: {location_path: /b}}"
      (by decide +kernel) (by decide +kernel) (by decide +kernel) (by decide +kernel)
  have hfiles : ConfigSource.allFiles layeredMachine [.file "/sink.yaml", .dir "/conf"] =
      .ok ["/sink.yaml", "/conf/a.yml", "/conf/b.yaml"] := by
    rw [ConfigSource.allFiles, ConfigSource.allFiles, ConfigSource.files, ConfigSource.files,
      listDir_layered]
    exact congrArg (fun files ↦ Except.ok ("/sink.yaml" :: (files ++ []))) yamlFiles_layered
  have hdisjoint : [slashed, ofTable "a" "/a", ofTable "b" "/b"].Pairwise fun part other ↦
      part.tables.keys.Disjoint other.tables.keys := by
    simp [slashed, ofTable, empty, SequencedMap.keys, SequencedMap.ofList, SequencedMap.insert,
      SequencedMap.empty]
  refine ⟨?_, hdisjoint, (hsources _ _).2 ⟨_, _, hfiles,
    .cons definedBy_sink (.cons hfirst (.cons hsecond .nil)), hdisjoint, rfl, rfl⟩⟩
  have hgroup := hregroup [.file "/sink.yaml"] "/conf" [] _ listDir_layered
  rwa [show List.map Listed.name _ = ["b.yaml", "notes.txt", "a.yml"] from rfl,
    yamlFiles_layered] at hgroup

/-- The default path of the catalog with a slash behind it stays as it is in a configuration that
comes from the file alone, and becomes the default path if the file is a source. -/
theorem default_path_respelled :
    hasYamlExtension "/sink.yaml" = true ∧
      ((ofFile (fun _ ↦ none) "/sink.yaml" : MachineM _) layeredMachine).1 = .ok slashed ∧
      ((ofSources (fun _ ↦ none) [.file "/sink.yaml"] : MachineM _) layeredMachine).1 = .ok empty ∧
      slashed.catalogPath ≠ empty.catalogPath := by
  have hrest := atRest_machine layeredMachine
  have hyaml : hasYamlExtension "/sink.yaml" = true := by decide +kernel
  have hfile : ((ofFile (fun _ ↦ none) "/sink.yaml" : MachineM _) layeredMachine).1 =
      .ok slashed :=
    (ofFile_eq_ok_iff hrest hyaml).2 ⟨definedBy_sink, by decide +kernel⟩
  refine ⟨hyaml, hfile, (ofSources_file_eq_ok_iff hrest hyaml).2 ?_, by decide⟩
  rw [hfile]
  decide +kernel

end Config

end CommitCoordinator
