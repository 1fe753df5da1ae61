import CommitCoordinator.Proofs.Config.Sources
import CommitCoordinator.Proofs.Data.Following

/-!
# Which file a setting comes from

The text of a file may leave a setting out, which the configuration does not tell from a text that
states the default. A setting that results from several files is the one that the last of them
states, where files that state the default are passed over.
-/

namespace CommitCoordinator

open Data Storage Template

/-! ## What a text states -/

/-- A configuration as a text states it: a setting that the text leaves out is absent. -/
structure Outline where
  tables : SequencedMap TableKey TableConfig
  catalogPath? : Option String
  stateDir? : Option String
  metricsAddress? : Option String
deriving DecidableEq

namespace Outline

/-- The configuration, with the defaults for what is absent. -/
def filled (outline : Outline) : Config where
  tables := outline.tables
  catalogPath := outline.catalogPath?.getD Config.defaultCatalogPath
  stateDir := outline.stateDir?.getD Config.defaultStateDir
  metricsAddress := outline.metricsAddress?.getD Config.defaultMetricsAddress

/-- A value that is not absent. -/
def presentCodec (codec : Codec String) : Codec (Option String) where
  encode := (Codec.optional codec).encode
  decode value := some <$> codec.decode value

/-- A section whose one member may be left out. -/
def sectionCodec (title name : String) (codec : Codec String) : Codec (Option String) :=
  .record ⟨recordTitle title, .cons (.defaulted name (presentCodec codec) none) .nil, true⟩
    (fun value ↦ (value, ())) Prod.fst

def fields :
    Fields [SequencedMap TableKey TableConfig, Option String, Option String, Option String] :=
  .cons (.defaulted "tables"
    (.sequencedMap TableKey.text (fun text ↦ .ok ⟨text⟩) TableConfig.codec) .empty) <|
  .cons (.defaulted "catalog" (sectionCodec "CatalogConfig" "path" Config.pathCodec) none) <|
  .cons (.defaulted "state" (sectionCodec "StateConfig" "dir" Config.pathCodec) none) <|
  .cons (.defaulted "metrics" (sectionCodec "MetricsConfig" "address" .text) none) .nil

def codec : Codec Outline :=
  .record ⟨recordTitle "Config", fields, false⟩
    (fun o ↦ (o.tables, o.catalogPath?, o.stateDir?, o.metricsAddress?, ()))
    (fun (tables, catalogPath?, stateDir?, metricsAddress?, ()) ↦
      ⟨tables, catalogPath?, stateDir?, metricsAddress?⟩)

theorem decode_section (title name : String) (codec : Codec String) (default : String)
    (value : Value) : (Config.sectionCodec title name codec default).decode value =
      (fun stated ↦ stated.getD default) <$> (sectionCodec title name codec).decode value := by
  have hfield (member : Value) : codec.decode member =
      (fun stated ↦ stated.getD default) <$> (presentCodec codec).decode member := by
    change _ = _ <$> some <$> codec.decode member
    cases codec.decode member <;> rfl
  have hfollows : Fields.Follows (.cons (.defaulted name (presentCodec codec) none) .nil)
      (.cons (.defaulted name codec default) .nil) _ _ :=
    .cons rfl hfield rfl .nil
  exact Codec.decode_record_of_follows hfollows (fun _ ↦ by rfl) (recordTitle title) true value

/-- A configuration is read as its outline is, with the defaults in place afterwards. -/
theorem decode_filled (value : Value) :
    Config.codec.decode value = filled <$> codec.decode value := by
  have hcatalog := decode_section "CatalogConfig" "path" Config.pathCodec Config.defaultCatalogPath
  have hfollows : fields.Follows Config.fields _ _ :=
    .cons rfl (fun table ↦ (id_map _).symm) rfl <|
    .cons rfl hcatalog rfl <|
    .cons rfl (decode_section "StateConfig" "dir" Config.pathCodec Config.defaultStateDir) rfl <|
    .cons rfl (decode_section "MetricsConfig" "address" .text Config.defaultMetricsAddress) rfl .nil
  exact Codec.decode_record_of_follows hfollows (fun _ ↦ by rfl) (recordTitle "Config") false value

theorem decodeText_filled (wanted : List String) (text : String) :
    Yaml.decodeText Config.codec wanted text = filled <$> Yaml.decodeText codec wanted text := by
  unfold Yaml.decodeText
  simp only [decode_filled]
  cases codec.decode _ with
  | error complaint => rfl
  | ok outline =>
    simp only [except_map_ok, except_ok_bind]
    split <;> rfl

section Files

variable {σ : Type} [MonadFileSystem (StateM σ)]

/-- Whether a file states an outline. -/
abbrev StatedBy (env : Environment) (s : σ) (path : String) (outline : Outline) : Prop :=
  Config.ReadBy codec env s path outline

variable {env : Environment} {s : σ}

theorem definedBy_iff {path : String} {config : Config} :
    Config.DefinedBy env s path config ↔ ∃ outline, StatedBy env s path outline ∧
      config = outline.filled := by
  have hiff (text : String) : Yaml.decodeText Config.codec Config.fields.names text = .ok config ↔
      ∃ outline, Yaml.decodeText codec Config.fields.names text = .ok outline ∧
        config = outline.filled := by
    rw [decodeText_filled]
    cases Yaml.decodeText codec Config.fields.names text <;> simp [eq_comm]
  constructor
  · rintro ⟨hextension, bytes, hbytes, hfault, hunset, hconfig⟩
    obtain ⟨outline, houtline, h⟩ := (hiff _).1 hconfig
    exact ⟨outline, ⟨hextension, bytes, hbytes, hfault, hunset, houtline⟩, h⟩
  · rintro ⟨outline, ⟨hextension, bytes, hbytes, hfault, hunset, houtline⟩, h⟩
    exact ⟨hextension, bytes, hbytes, hfault, hunset, (hiff _).2 ⟨outline, houtline, h⟩⟩

/-- Files that give configurations state outlines of them. -/
theorem exists_outlines {files : List String} {configs : List Config}
    (h : List.Forall₂ (Config.DefinedBy env s) files configs) :
    ∃ outlines, List.Forall₂ (StatedBy env s) files outlines ∧ configs = outlines.map filled := by
  induction h with
  | nil => exact ⟨[], .nil, rfl⟩
  | cons hfile _ ih =>
    obtain ⟨outlines, houtlines, rfl⟩ := ih
    obtain ⟨outline, houtline, rfl⟩ := definedBy_iff.1 hfile
    exact ⟨outline :: outlines, .cons houtline houtlines, rfl⟩

end Files

end Outline

/-! ## Which statement is left -/

namespace Config

/-- What the last of several texts states that state something, or what there was before. -/
def lastStated (first : String) (stated : List (Option String)) : String :=
  stated.foldl (fun earlier later ↦ later.getD earlier) first

/-- A statement unless it is the default. -/
def unlessDefault (isDefault : String → Bool) (stated : Option String) : Option String :=
  stated.filter fun value ↦ !isDefault value

theorem lastStated_of_none {stated : List (Option String)} (h : ∀ value ∈ stated, value = none)
    (first : String) : lastStated first stated = first := by
  induction stated with
  | nil => rfl
  | cons value rest ih =>
    rw [List.forall_mem_cons] at h
    obtain rfl := h.1
    exact ih h.2

theorem lastStated_append_cons (first : String) (front : List (Option String)) (value : String)
    {back : List (Option String)} (h : ∀ later ∈ back, later = none) :
    lastStated first (front ++ some value :: back) = value := by
  rw [lastStated, List.foldl_append]
  exact lastStated_of_none h value

/-- Whether a setting is the last that texts state, where those that state the default are passed
over. So it is what the last text that states something states, if this is not the default. -/
structure IsLastStated (isDefault : String → Bool) (default : String)
    (stated : List (Option String)) (setting : String) : Prop where
  eq_lastStated : setting = lastStated default (stated.map (unlessDefault isDefault))
  of_last (front : List (Option String)) (value : String) (back : List (Option String)) :
    stated = front ++ some value :: back → (∀ later ∈ back, later = none) →
      isDefault value = false → setting = value
  of_none : (∀ value ∈ stated, value = none) → setting = default

theorem isLastStated (isDefault : String → Bool) (default : String)
    (stated : List (Option String)) :
    IsLastStated isDefault default stated
      (lastStated default (stated.map (unlessDefault isDefault))) := by
  have habsent {texts : List (Option String)} (h : ∀ value ∈ texts, value = none) :
      ∀ value ∈ texts.map (unlessDefault isDefault), value = none := by
    rintro _ hvalue
    obtain ⟨value, hmem, rfl⟩ := List.mem_map.1 hvalue
    rw [h value hmem]
    rfl
  refine ⟨rfl, ?_, fun hnone ↦ lastStated_of_none (habsent hnone) default⟩
  rintro front value back rfl hback hvalue
  have hvalue : unlessDefault isDefault (some value) = some value := by
    simp [unlessDefault, Option.filter, hvalue]
  rw [List.map_append, List.map_cons, hvalue]
  exact lastStated_append_cons default _ value (habsent hback)

theorem override_filled {isDefault : String → Bool} {default : String}
    (h : isDefault default = true) (earlier : String) (stated : Option String) :
    override isDefault earlier (stated.getD default) =
      (unlessDefault isDefault stated).getD earlier := by
  cases stated with
  | none => exact override_of_default h earlier
  | some value =>
    cases hvalue : isDefault value <;>
      simp [override, unlessDefault, Option.filter, hvalue]

/-- What is left of one setting when outlines are filled and merged. -/
theorem setting_foldl_filled (isDefault : String → Bool) {default : String}
    (hdefault : isDefault default = true) (setting : Config → String)
    (stated : Outline → Option String)
    (hmerge : ∀ config outline, setting (config.mergeSettings outline.filled) =
      override isDefault (setting config) ((stated outline).getD default))
    (outlines : List Outline) (base : Config) :
    setting ((outlines.map Outline.filled).foldl mergeSettings base) =
      lastStated (setting base) ((outlines.map stated).map (unlessDefault isDefault)) := by
  induction outlines generalizing base with
  | nil => rfl
  | cons outline rest ih =>
    rw [List.map_cons, List.foldl_cons, ih, hmerge, override_filled hdefault]
    rfl

variable {σ : Type} [MonadFileSystem (StateM σ)]

/-- Every setting of a configuration that is loaded is what the last of its files states about it,
files that state the default being passed over, and the default if there is no such file. -/
theorem settings_of_files {s : σ} (hrest : AtRest s) {env : Environment}
    {sources : List ConfigSource} {config : Config}
    (h : ((ofSources env sources : StateM σ _) s).1 = .ok config) :
    ∃ files outlines, ConfigSource.allFiles s sources = .ok files ∧
      List.Forall₂ (Outline.StatedBy env s) files outlines ∧
      IsLastStated (isSamePath defaultCatalogPath) defaultCatalogPath
        (outlines.map Outline.catalogPath?) config.catalogPath ∧
      IsLastStated (isSamePath defaultStateDir) defaultStateDir
        (outlines.map Outline.stateDir?) config.stateDir ∧
      IsLastStated (· = defaultMetricsAddress) defaultMetricsAddress
        (outlines.map Outline.metricsAddress?) config.metricsAddress := by
  obtain ⟨files, configs, hfiles, hconfigs, hmerged, -⟩ := (ofSources_eq_ok_iff hrest).1 h
  obtain ⟨outlines, houtlines, rfl⟩ := Outline.exists_outlines hconfigs
  obtain ⟨hdisjoint, rfl⟩ := isMerged_empty_iff.1 hmerged
  refine ⟨files, outlines, hfiles, houtlines, ?_, ?_, ?_⟩
  · have hcatalog := setting_foldl_filled _ (isSamePath_self _) catalogPath Outline.catalogPath?
      (fun _ _ ↦ rfl) outlines empty
    exact hcatalog ▸ isLastStated _ _ _
  · have hstate := setting_foldl_filled _ (isSamePath_self _) stateDir Outline.stateDir?
      (fun _ _ ↦ rfl) outlines empty
    exact hstate ▸ isLastStated _ _ _
  · have haddress := setting_foldl_filled (· = defaultMetricsAddress) (decide_eq_true rfl)
      metricsAddress Outline.metricsAddress? (fun _ _ ↦ rfl) outlines empty
    exact haddress ▸ isLastStated _ _ _

end Config

/-! ## Two files -/

/-- A file with settings of its own, and one that states the default path of the catalog. -/
def twoFilesMachine : Machine :=
  ⟨((FileTree.empty []).insertNode ["first.yaml"]
    (asciiFile "{catalog: {path: c.json}, state: {dir: s}}")).insertNode ["last.yaml"]
      (asciiFile "{catalog: {path: soulsink-catalog.json}, state: {dir: t}}"), .empty, 0, 0⟩

theorem linkFree_twoFiles : twoFilesMachine.files.LinkFree :=
  (FileTree.linkFree_empty.insertNode _ (asciiFile_ne_link _)).insertNode _ (asciiFile_ne_link _)

theorem statedBy_first : Outline.StatedBy (fun _ ↦ none) twoFilesMachine "/first.yaml"
    ⟨.empty, some "c.json", some "s", none⟩ :=
  Config.readBy_asciiFile linkFree_twoFiles "/first.yaml" ["first.yaml"]
    "{catalog: {path: c.json}, state: {dir: s}}" (by decide +kernel) (by decide +kernel)
    (by decide +kernel) (by decide +kernel)

theorem statedBy_last : Outline.StatedBy (fun _ ↦ none) twoFilesMachine "/last.yaml"
    ⟨.empty, some "soulsink-catalog.json", some "t", none⟩ :=
  Config.readBy_asciiFile linkFree_twoFiles "/last.yaml" ["last.yaml"]
    "{catalog: {path: soulsink-catalog.json}, state: {dir: t}}" (by decide +kernel)
    (by decide +kernel) (by decide +kernel) (by decide +kernel)

namespace Config

theorem ofSources_twoFiles :
    ((ofSources (fun _ ↦ none) [.file "/first.yaml", .file "/last.yaml"] : MachineM _)
      twoFilesMachine).1 = .ok { empty with catalogPath := "c.json", stateDir := "t" } := by
  refine (ofSources_eq_ok_iff (atRest_machine _)).2 ⟨["/first.yaml", "/last.yaml"], _, rfl,
    .cons (Outline.definedBy_iff.2 ⟨_, statedBy_first, rfl⟩)
      (.cons (Outline.definedBy_iff.2 ⟨_, statedBy_last, rfl⟩) .nil), ?_, by decide +kernel⟩
  refine isMerged_empty_iff.2 ⟨?_, ?_⟩
  · simp [Outline.filled, SequencedMap.keys, SequencedMap.empty]
  · decide +kernel

/-- The directory that the last file states is taken, and so is the path of the catalog that the
first file states, as the last one states the default. -/
theorem settings_of_files_two : ∃ files outlines,
    ConfigSource.allFiles twoFilesMachine [.file "/first.yaml", .file "/last.yaml"] = .ok files ∧
    List.Forall₂ (Outline.StatedBy (fun _ ↦ none) twoFilesMachine) files outlines ∧
    IsLastStated (isSamePath defaultCatalogPath) defaultCatalogPath
      (outlines.map Outline.catalogPath?) "c.json" ∧
    IsLastStated (isSamePath defaultStateDir) defaultStateDir
      (outlines.map Outline.stateDir?) "t" ∧
    IsLastStated (· = defaultMetricsAddress) defaultMetricsAddress
      (outlines.map Outline.metricsAddress?) defaultMetricsAddress :=
  settings_of_files (atRest_machine _) ofSources_twoFiles

/-- The last of two files states a path of the catalog, which the configuration does not have. -/
theorem default_stated_last :
    ConfigSource.allFiles twoFilesMachine [.file "/first.yaml", .file "/last.yaml"] =
      .ok ["/first.yaml", "/last.yaml"] ∧
    (∃ outline, Outline.StatedBy (fun _ ↦ none) twoFilesMachine "/last.yaml" outline ∧
      outline.catalogPath? = some "soulsink-catalog.json") ∧
    ∃ config, ((ofSources (fun _ ↦ none) [.file "/first.yaml", .file "/last.yaml"] : MachineM _)
      twoFilesMachine).1 = .ok config ∧ config.catalogPath ≠ "soulsink-catalog.json" :=
  ⟨rfl, ⟨_, statedBy_last, rfl⟩, _, ofSources_twoFiles, by decide⟩

end Config

end CommitCoordinator
