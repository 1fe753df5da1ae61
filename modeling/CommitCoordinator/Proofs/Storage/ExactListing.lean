import Mathlib.Data.List.Nodup
import CommitCoordinator.Proofs.Collection.Lookup
import CommitCoordinator.Proofs.Storage.KeySegments
import CommitCoordinator.Storage.Location

/-!
# Listings of an object store are exact

The directory of a partition is a key: the segments of the root followed by those of the
partition, whatever slashes the location ends in or the partition has around it. Its listing has
one entry for each name that a stored key has directly below these segments, a directory if the
key goes on and a file if it ends there, and nothing else.
-/

namespace CommitCoordinator.Storage

/-- The names of a directory: one directory for each name that stored keys continue behind, and
one file with its size for each name that a stored key ends in. -/
structure Objects.Children (objects : Objects) (directory directories : List (List Char))
    (files : List (List Char × UInt64)) : Prop where
  nodup_directories : directories.Nodup
  nodup_files : (files.map Prod.fst).Nodup
  mem_directories : ∀ name, name ∈ directories ↔ ∃ entry ∈ objects.entries, ∃ below, below ≠ [] ∧
    keyParts entry.1.toList = directory ++ name :: below
  mem_files : ∀ name size, (name, size) ∈ files ↔ ∃ entry ∈ objects.entries, entry.2 = size ∧
    keyParts entry.1.toList = directory ++ [name]

/-- The path of a key below a location. -/
def pathBelow (location : String) (segments : List (List Char)) : String :=
  trimTrailingSlashes location ++ "/" ++ String.ofList (joined segments)

/-! ## What lies below a key -/

section Children

variable {objects : Objects} {directory : List (List Char)}

theorem mem_children_dirs (key : String)
    (hdirectory : ∀ segment ∈ directory, IsSegment segment)
    (hstored : ∀ entry ∈ objects.entries, IsKey entry.1.toList) :
    key ∈ (childrenOf objects (String.ofList (joined directory))).1 ↔
      ∃ entry ∈ objects.entries, ∃ name below, below ≠ [] ∧
        keyParts entry.1.toList = directory ++ name :: below ∧
        key = String.ofList (joined (directory ++ [name])) := by
  have hbelow (entry : String × UInt64) (hentry : entry ∈ objects.entries)
      (segments : List (List Char)) :
      segmentsBelow (joined directory) entry.1.toList = some segments ↔
        keyParts entry.1.toList = directory ++ segments := by
    rw [← segmentsBelow_eq_some hdirectory fun _ ↦ isSegment_of_mem_keyParts, hstored entry hentry]
  have hchild (name : List Char) : childKey (joined directory) name =
      String.ofList (joined (directory ++ [name])) := by
    rw [← childKey_joined hdirectory, String.ofList_toList]
  rw [childrenOf]
  simp only [SortedSet.mem_ofList, List.mem_filterMap, Option.map_eq_some_iff,
    String.toList_ofList]
  constructor
  · rintro ⟨_, ⟨entry, hentry, segments, hsegments, rfl⟩, hkey⟩
    match segments with
    | [] | [_] => cases hkey
    | name :: next :: below =>
      refine ⟨entry, hentry, name, next :: below, List.cons_ne_nil next below,
        (hbelow entry hentry _).1 hsegments, ?_⟩
      rw [← hchild]
      exact (Option.some.inj hkey).symm
  · rintro ⟨entry, hentry, name, below, hne, hparts, rfl⟩
    refine ⟨(name :: below, entry.1, entry.2),
      ⟨entry, hentry, name :: below, (hbelow entry hentry _).2 hparts, rfl⟩, ?_⟩
    cases below with
    | nil => exact absurd rfl hne
    | cons next below => rw [← hchild]

/-- The files below a key are the objects whose key has one more segment. -/
theorem children_files_eq (objects : Objects) (directory : String) :
    (childrenOf objects directory).2 = objects.entries.filter fun entry ↦
      (segmentsBelow directory.toList entry.1.toList).map List.length = some 1 := by
  change List.filterMap _ (List.filterMap _ objects.entries) = _
  rw [List.filterMap_filterMap, ← List.filterMap_eq_filter]
  congr 1
  funext ⟨key, size⟩
  cases hbelow : segmentsBelow directory.toList key.toList with
  | none => simp [Option.guard, hbelow]
  | some segments => simp [Option.guard, hbelow]

theorem mem_children_files (key : String) (size : UInt64)
    (hdirectory : ∀ segment ∈ directory, IsSegment segment)
    (hstored : ∀ entry ∈ objects.entries, IsKey entry.1.toList) :
    (key, size) ∈ (childrenOf objects (String.ofList (joined directory))).2 ↔
      (key, size) ∈ objects.entries ∧ ∃ name, keyParts key.toList = directory ++ [name] := by
  rw [children_files_eq, List.mem_filter, String.toList_ofList]
  refine and_congr_right fun hentry ↦ ?_
  rw [decide_eq_true_iff, Option.map_eq_some_iff]
  constructor
  · rintro ⟨segments, hsegments, hlength⟩
    obtain ⟨name, rfl⟩ := List.length_eq_one_iff.1 hlength
    rw [← hstored (key, size) hentry,
      segmentsBelow_eq_some hdirectory fun _ ↦ isSegment_of_mem_keyParts] at hsegments
    exact ⟨name, hsegments⟩
  · rintro ⟨name, hparts⟩
    refine ⟨[name], ?_, rfl⟩
    rwa [← hstored (key, size) hentry,
      segmentsBelow_eq_some hdirectory fun _ ↦ isSegment_of_mem_keyParts]

theorem nodup_children_files (objects : Objects) (directory : String) :
    ((childrenOf objects directory).2.map Prod.fst).Nodup := by
  have hkeys : (objects.entries.map Prod.fst).Nodup :=
    List.pairwise_map.2 (objects.ascending.imp String.ne_of_lt)
  rw [children_files_eq]
  exact hkeys.sublist (List.filter_sublist.map Prod.fst)

/-- The key of a name in a directory. -/
def childAt (directory : List (List Char)) (name : List Char) : String :=
  String.ofList (joined (directory ++ [name]))

/-- The last segment of a key. -/
def nameOf (key : String) : List Char :=
  (keyParts key.toList).getLastD []

theorem nameOf_of_parts {key : String} {name : List Char}
    (hparts : keyParts key.toList = directory ++ [name]) : nameOf key = name := by
  rw [nameOf, hparts, List.getLastD_concat]

theorem keyParts_childAt {name : List Char} (hdirectory : ∀ segment ∈ directory, IsSegment segment)
    (hname : IsSegment name) : keyParts (childAt directory name).toList = directory ++ [name] := by
  rw [childAt, String.toList_ofList, keyParts_joined]
  intro segment hmem
  rcases List.mem_append.1 hmem with hmem | hmem
  · exact hdirectory segment hmem
  · exact List.mem_singleton.1 hmem ▸ hname

theorem childAt_nameOf {key : String} {name : List Char} (hkey : IsKey key.toList)
    (hparts : keyParts key.toList = directory ++ [name]) :
    childAt directory (nameOf key) = key := by
  rw [childAt, nameOf_of_parts hparts, ← hparts, hkey, String.ofList_toList]

theorem isSegment_of_parts {key : String} {name : List Char} {below : List (List Char)}
    (h : keyParts key.toList = directory ++ name :: below) : IsSegment name :=
  isSegment_of_mem_keyParts (h ▸ List.mem_append_right _ List.mem_cons_self)

theorem map_eq_of_fixed {α : Type} {f : α → α} {items : List α}
    (h : ∀ item ∈ items, f item = item) : items.map f = items := by
  rw [List.map_congr_left h, List.map_id']

theorem children_dirs_exact (hdirectory : ∀ segment ∈ directory, IsSegment segment)
    (hstored : ∀ entry ∈ objects.entries, IsKey entry.1.toList) :
    ∃ directories : List (List Char), directories.Nodup ∧
      (childrenOf objects (String.ofList (joined directory))).1 =
        directories.map (childAt directory) ∧
      ∀ name, name ∈ directories ↔ ∃ entry ∈ objects.entries, ∃ below, below ≠ [] ∧
        keyParts entry.1.toList = directory ++ name :: below := by
  have hkeys (key : String) := mem_children_dirs key hdirectory hstored
  have hnodup : (childrenOf objects (String.ofList (joined directory))).1.Nodup :=
    SortedSet.nodup_elements _
  generalize (childrenOf objects (String.ofList (joined directory))).1 = keys at hkeys hnodup ⊢
  have hback : (keys.map nameOf).map (childAt directory) = keys := by
    rw [List.map_map]
    refine map_eq_of_fixed fun key hkey ↦ ?_
    obtain ⟨entry, -, name, below, -, hparts, rfl⟩ := (hkeys key).1 hkey
    have hchild := keyParts_childAt hdirectory (isSegment_of_parts hparts)
    exact congrArg (childAt directory) (nameOf_of_parts hchild)
  have hnames : (keys.map nameOf).Nodup := by
    rw [← hback] at hnodup
    exact hnodup.of_map (childAt directory)
  refine ⟨keys.map nameOf, hnames, hback.symm, fun name ↦ ?_⟩
  rw [List.mem_map]
  constructor
  · rintro ⟨key, hkey, rfl⟩
    obtain ⟨entry, hentry, name, below, hne, hparts, rfl⟩ := (hkeys key).1 hkey
    have hchild := keyParts_childAt hdirectory (isSegment_of_parts hparts)
    exact ⟨entry, hentry, below, hne, (nameOf_of_parts hchild).symm ▸ hparts⟩
  · rintro ⟨entry, hentry, below, hne, hparts⟩
    have hchild := keyParts_childAt hdirectory (isSegment_of_parts hparts)
    exact ⟨childAt directory name, (hkeys _).2 ⟨entry, hentry, name, below, hne, hparts, rfl⟩,
      nameOf_of_parts hchild⟩

theorem children_files_exact (hdirectory : ∀ segment ∈ directory, IsSegment segment)
    (hstored : ∀ entry ∈ objects.entries, IsKey entry.1.toList) :
    ∃ files : List (List Char × UInt64), (files.map Prod.fst).Nodup ∧
      (childrenOf objects (String.ofList (joined directory))).2 =
        files.map (fun file ↦ (childAt directory file.1, file.2)) ∧
      ∀ name size, (name, size) ∈ files ↔ ∃ entry ∈ objects.entries, entry.2 = size ∧
        keyParts entry.1.toList = directory ++ [name] := by
  have hfound (key : String) (size : UInt64) := mem_children_files key size hdirectory hstored
  have hnodup := nodup_children_files objects (String.ofList (joined directory))
  generalize (childrenOf objects (String.ofList (joined directory))).2 = found at hfound hnodup ⊢
  have hback : (found.map fun file ↦ (nameOf file.1, file.2)).map
      (fun file ↦ (childAt directory file.1, file.2)) = found := by
    have hfile (file : String × UInt64) (hfile : file ∈ found) :
        childAt directory (nameOf file.1) = file.1 := by
      obtain ⟨hentry, name, hparts⟩ := (hfound file.1 file.2).1 hfile
      exact childAt_nameOf (hstored file hentry) hparts
    rw [List.map_map]
    exact map_eq_of_fixed fun file hmem ↦ congrArg (·, file.2) (hfile file hmem)
  have hnames : ((found.map fun file ↦ (nameOf file.1, file.2)).map Prod.fst).Nodup := by
    have hkeys : found.map Prod.fst =
        ((found.map fun file ↦ (nameOf file.1, file.2)).map Prod.fst).map (childAt directory) := by
      conv_lhs => rw [← hback]
      simp only [List.map_map, Function.comp_def]
    rw [hkeys] at hnodup
    exact hnodup.of_map (childAt directory)
  refine ⟨_, hnames, hback.symm, fun name size ↦ ?_⟩
  rw [List.mem_map]
  constructor
  · rintro ⟨file, hfile, heq⟩
    obtain ⟨rfl, rfl⟩ := Prod.mk.inj heq
    obtain ⟨hentry, name, hparts⟩ := (hfound file.1 file.2).1 hfile
    exact ⟨file, hentry, rfl, (nameOf_of_parts hparts).symm ▸ hparts⟩
  · rintro ⟨entry, hentry, rfl, hparts⟩
    exact ⟨entry, (hfound entry.1 entry.2).2 ⟨hentry, name, hparts⟩,
      Prod.ext (nameOf_of_parts hparts) rfl⟩

end Children

/-! ## The key of a directory and the paths of its entries -/

namespace ObjectListing

variable {listing : ObjectListing} {location partition : String}

theorem of_atLocation [Url.DomainNames] (h : atLocation location = .ok listing) :
    listing.base = trimTrailingSlashes location ∧ IsKey listing.root.toList := by
  unfold atLocation at h
  split at h
  · cases h
  · next url _ =>
    split at h
    · next kind root hurl =>
      cases h
      refine ⟨rfl, ?_⟩
      unfold resolveUrl at hurl
      split at hurl
      · cases hurl
      · next hasBucket _ =>
        cases hroot : keyOfUrlPath (if hasBucket then dropBucket url.path else url.path) with
        | error e =>
          rw [hroot] at hurl
          cases hurl
        | ok key =>
          rw [hroot] at hurl
          cases hurl
          exact isKey_of_keyOfUrlPath hroot
    · cases h

/-- A directory at a location or below it has a key, which goes on as the directory does. -/
theorem keyText_within {directory : String} {rest : List Char}
    (hdirectory : directory.toList = listing.base.toList ++ rest)
    (hboundary : rest = [] ∨ rest.head? = some '/') :
    ∃ text, listing.keyText directory = .ok text ∧
      keyParts text.toList = keyParts listing.root.toList ++ keyParts rest := by
  have hstarts : listing.base.toList.isPrefixOf directory.toList :=
    List.isPrefixOf_iff_prefix.2 ⟨rest, hdirectory.symm⟩
  unfold keyText
  extract_lets outside base tail text
  have htail : tail = rest := by
    rw [show tail = directory.toList.drop base.length from rfl, hdirectory, List.drop_left]
  have htext : keyParts text.toList = keyParts rest := by
    rw [show text = _ from rfl, String.toList_ofList, htail, keyParts_dropTrailingSlashes,
      keyParts_dropLeadingSlashes]
  rw [if_pos hstarts, if_pos (htail ▸ hboundary)]
  refine ⟨_, rfl, ?_⟩
  split_ifs with hroot hempty
  · rw [htext, hroot]
    rfl
  · rw [← htext, hempty]
    exact (List.append_nil _).symm
  · have happend : (listing.root ++ "/" ++ text).toList =
        listing.root.toList ++ '/' :: text.toList := by
      simp
    rw [happend, keyParts_append_slash, htext]

/-- The directory of a partition is never outside of the location. -/
theorem keyText_joinPath (hbase : listing.base = trimTrailingSlashes location)
    (partition : String) :
    ∃ text, listing.keyText (joinPath location partition) = .ok text ∧
      keyParts text.toList = keyParts listing.root.toList ++ keyParts partition.toList := by
  have hdir : ∃ rest, (joinPath location partition).toList = listing.base.toList ++ rest ∧
      (rest = [] ∨ rest.head? = some '/') ∧ keyParts rest = keyParts partition.toList := by
    rw [hbase, trimTrailingSlashes, String.toList_ofList, joinPath, String.toList_ofList]
    split
    · next hempty =>
      refine ⟨[], (List.append_nil _).symm, .inl rfl, ?_⟩
      rw [← keyParts_dropLeadingSlashes partition.toList, List.isEmpty_iff.1 hempty]
    · refine ⟨_, rfl, .inr rfl, ?_⟩
      rw [keyParts_cons_slash, keyParts_dropLeadingSlashes]
  obtain ⟨rest, hdir, hboundary, hrest⟩ := hdir
  exact hrest ▸ keyText_within hdir hboundary

/-- A key below the root is shown below the location. -/
theorem qualify_joined {segments : List (List Char)} (hroot : IsKey listing.root.toList)
    (hsegments : ∀ segment ∈ segments, IsSegment segment) :
    listing.qualify (String.ofList (joined (keyParts listing.root.toList ++ segments))) =
      listing.base ++ "/" ++ String.ofList (joined segments) := by
  have hdrop : dropLeadingSlashes (if segments = [] then [] else '/' :: joined segments) =
      joined segments := by
    split_ifs with hnil
    · rw [hnil]
      rfl
    · rw [dropLeadingSlashes, List.dropWhile_cons_of_pos (by rfl), ← dropLeadingSlashes,
        dropLeadingSlashes_joined hsegments]
  have hrest : (if listing.root.toList ≠ [] ∧ listing.root.toList.isPrefixOf
        (joined (keyParts listing.root.toList ++ segments)) then
        dropLeadingSlashes ((joined (keyParts listing.root.toList ++ segments)).drop
          listing.root.toList.length)
      else if listing.root.toList ≠ [] then
        dropLeadingSlashes (joined (keyParts listing.root.toList ++ segments))
      else joined (keyParts listing.root.toList ++ segments)) = joined segments := by
    by_cases hempty : listing.root.toList = []
    · rw [hempty, if_neg fun h ↦ h.1 rfl, if_neg (not_not.2 rfl), keyParts_nil, List.nil_append]
    · have hparts : keyParts listing.root.toList ≠ [] := fun hnil ↦ hempty <| by
        rw [← hroot, hnil]
        rfl
      obtain ⟨hstarts, hbelow⟩ := drop_length_joined_append _ segments hparts
      rw [hroot] at hstarts hbelow
      rw [if_pos ⟨hempty, List.isPrefixOf_iff_prefix.2 hstarts⟩, hbelow, hdrop]
  rw [qualify, String.toList_ofList, hrest]

theorem entries_eq {objects : Objects} {directory key : String}
    (h : listing.directoryKey directory = .ok key) :
    listing.entries objects directory = .ok
      ((childrenOf objects key).1.map (fun key ↦ .dir (listing.qualify key)) ++
        (childrenOf objects key).2.map fun file ↦ .file (listing.qualify file.1) file.2) := by
  rw [entries, h]
  rfl

/-- A directory of plain segments is listed as what lies directly below its key, whatever slashes
the location or the partition has at its ends. -/
theorem entries_joinPath [Url.DomainNames] {objects : Objects}
    (located : atLocation location = .ok listing ∨ listing = ofBase location)
    (plain_root : ∀ segment ∈ keyParts listing.root.toList, IsPlain segment)
    (plain_partition : ∀ segment ∈ keyParts partition.toList, IsPlain segment)
    (stored : ∀ entry ∈ objects.entries, IsKey entry.1.toList) :
    ∃ directories files,
      objects.Children (keyParts listing.root.toList ++ keyParts partition.toList)
        directories files ∧
      listing.entries objects (joinPath location partition) = .ok
        (directories.map
            (fun name ↦ .dir (pathBelow location (keyParts partition.toList ++ [name]))) ++
          files.map fun file ↦
            .file (pathBelow location (keyParts partition.toList ++ [file.1])) file.2) := by
  obtain ⟨hbase, hroot⟩ : listing.base = trimTrailingSlashes location ∧
      IsKey listing.root.toList := by
    rcases located with h | rfl
    · exact of_atLocation h
    · exact ⟨rfl, rfl⟩
  have hroots : ∀ segment ∈ keyParts listing.root.toList, IsSegment segment :=
    fun _ ↦ isSegment_of_mem_keyParts
  have hparts : ∀ segment ∈ keyParts partition.toList, IsSegment segment :=
    fun _ ↦ isSegment_of_mem_keyParts
  have hdirectory : ∀ segment ∈ keyParts listing.root.toList ++ keyParts partition.toList,
      IsSegment segment :=
    fun segment hmem ↦ (List.mem_append.1 hmem).elim (hroots segment) (hparts segment)
  obtain ⟨text, htext, htextParts⟩ := keyText_joinPath hbase partition
  have hkey : listing.directoryKey (joinPath location partition) = .ok
      (String.ofList (joined (keyParts listing.root.toList ++ keyParts partition.toList))) := by
    have hplain : ∀ segment ∈ keyParts text.toList, IsPlain segment := by
      rw [htextParts]
      exact fun segment hmem ↦
        (List.mem_append.1 hmem).elim (plain_root segment) (plain_partition segment)
    rw [directoryKey, htext, ← htextParts, ← keyOfText_of_plain hplain, String.ofList_toList]
    rfl
  obtain ⟨directories, hnodupDirs, hdirs, hmemDirs⟩ := children_dirs_exact hdirectory stored
  obtain ⟨files, hnodupFiles, hfiles, hmemFiles⟩ := children_files_exact hdirectory stored
  have hpath (name : List Char) (hname : IsSegment name) :
      listing.qualify (childAt (keyParts listing.root.toList ++ keyParts partition.toList) name) =
        pathBelow location (keyParts partition.toList ++ [name]) := by
    rw [childAt, List.append_assoc, qualify_joined hroot, hbase, pathBelow]
    intro segment hmem
    rcases List.mem_append.1 hmem with hmem | hmem
    · exact hparts segment hmem
    · exact List.mem_singleton.1 hmem ▸ hname
  refine ⟨directories, files, ⟨hnodupDirs, hnodupFiles, hmemDirs, hmemFiles⟩, ?_⟩
  rw [entries_eq hkey, hdirs, hfiles, List.map_map, List.map_map]
  congr 2
  · refine List.map_congr_left fun name hmem ↦ ?_
    obtain ⟨entry, -, below, -, hentry⟩ := (hmemDirs name).1 hmem
    exact congrArg Entry.dir (hpath name (isSegment_of_parts hentry))
  · refine List.map_congr_left fun file hmem ↦ ?_
    obtain ⟨entry, -, -, hentry⟩ := (hmemFiles file.1 file.2).1 hmem
    exact congrArg (Entry.file · file.2) (hpath file.1 (isSegment_of_parts hentry))

/-- A location with objects in a directory, below it and beside it, and one of its own name. -/
def eventObjects : Objects :=
  .ofList [("events/dt=1", 5), ("events/dt=1/part-0", 3), ("events/dt=1/sub/part-1", 1),
    ("events/dt=10/part-2", 2)]

theorem entries_joinPath_events :
    atLocation "memory:///events/" = .ok ⟨"memory:///events", "events"⟩ ∧
      (∃ directories files, eventObjects.Children
          (keyParts "events".toList ++ keyParts "/dt=1//".toList) directories files ∧
        (⟨"memory:///events", "events"⟩ : ObjectListing).entries eventObjects
            (joinPath "memory:///events/" "/dt=1//") = .ok
          (directories.map (fun name ↦
              .dir (pathBelow "memory:///events/" (keyParts "/dt=1//".toList ++ [name]))) ++
            files.map fun file ↦ .file
              (pathBelow "memory:///events/" (keyParts "/dt=1//".toList ++ [file.1])) file.2)) ∧
      (⟨"memory:///events", "events"⟩ : ObjectListing).entries eventObjects
          (joinPath "memory:///events/" "/dt=1//") = .ok
        [.dir "memory:///events/dt=1/sub", .file "memory:///events/dt=1/part-0" 3] :=
  have located : atLocation "memory:///events/" = .ok ⟨"memory:///events", "events"⟩ := by
    decide +kernel
  ⟨located, entries_joinPath (.inl located) (by decide) (by decide) (by decide), by decide⟩

end ObjectListing

end CommitCoordinator.Storage
