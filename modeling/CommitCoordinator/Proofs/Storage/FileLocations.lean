import CommitCoordinator.Proofs.Storage.Hosting
import CommitCoordinator.Proofs.Url.FilePath
import CommitCoordinator.Storage.Listing

/-!
# Directories of file URLs

A partition joined to a file URL is read as part of that URL. In its escaped form it leads to the
directory of the plain path, and both ways of writing the directory list the same entries, however
the URL is spelled. A partition that is not escaped can lead elsewhere.
-/

namespace CommitCoordinator

namespace Storage

open Url (DomainNames escapePath escapePathChar escapePathChar_eq_cons of_mem_escapePath
  of_mem_escapePathChar head?_escapePath fileScheme fileSchemeHost onHost isPathEnd isDriveLetter
  isSlash isTabOrNewline IsLocal IsRelative)

/-- The URL of a local directory. -/
def fileUrl (path : String) : String :=
  String.ofList (fileSchemeHost ++ escapePath path.toList)

/-- Text in the form that it has inside the path of a URL. -/
def escaped (text : String) : String :=
  String.ofList (escapePath text.toList)

/-- What stands before a partition that is joined to a root: the root without the slashes at its
end, and one slash unless the partition is empty. -/
def stem (root partition : String) : String :=
  String.ofList (dropTrailingSlashes root.toList ++
    if (dropLeadingSlashes partition.toList).isEmpty then [] else ['/'])

/-- Whether text is a URL that leads to a root, also in the form in which a partition is joined to
it. A query or a fragment would take the partition for itself, and so would an open host. -/
structure Spells [DomainNames] (location root partition : String) : Prop where
  leads : localPath location = .ok (root, true)
  leads_stem : localPath (stem location partition) = .ok (stem root partition, true)
  no_query : '?' ∉ location.toList
  no_fragment : '#' ∉ location.toList
  no_host : Url.cleanInput (stem location partition) ∉ [fileSchemeHost, fileScheme ++ ['\\', '/']]

/-- Whether a partition names a directory below a root, also in a URL: it has no slash at its end
and no parts that stand for other directories, and nothing looks like a drive. -/
structure IsBelow (root partition : String) : Prop where
  relative : IsRelative (dropLeadingSlashes partition.toList)
  open_end : (dropLeadingSlashes partition.toList).getLast? ≠ some '/'
  no_drive : isDriveLetter ((joinPath root partition).toList.drop
    ((joinPath root partition).toList.length - 2)) = false

/-- What a directory can have as the name of an entry, as far as joining paths can tell. -/
def IsEntryName (name : String) : Prop :=
  ∃ c rest, name.toList = c :: rest ∧ c ≠ '/'

/-- The outcome of a listing of a directory under the directory's own name. -/
def outcomeBelow (directory : String) :
    Except OsError (List Listed) → Except StorageError (List Entry)
  | .error cause => .error (ofOsError directory cause)
  | .ok listed => .ok (listed.map fun entry ↦
      if entry.isDir then .dir (directory ++ "/" ++ entry.name)
      else .file (directory ++ "/" ++ entry.name) entry.size)

/-! ## Slashes of escaped paths -/

theorem escapePath_append (front rest : List Char) :
    escapePath (front ++ rest) = escapePath front ++ escapePath rest :=
  List.flatMap_append

theorem escapePath_eq_nil {path : List Char} : escapePath path = [] ↔ path = [] := by
  cases path with
  | nil => exact iff_of_true rfl rfl
  | cons c rest =>
    obtain ⟨first, more, hchar⟩ := escapePathChar_eq_cons c
    rw [escapePath, List.flatMap_cons, hchar]
    exact iff_of_false (List.cons_ne_nil _ _) (List.cons_ne_nil _ _)

theorem dropTrailingSlashes_of_getLast? {cs : List Char} (h : cs.getLast? ≠ some '/') :
    dropTrailingSlashes cs = cs := by
  rw [dropTrailingSlashes]
  rw [← List.head?_reverse] at h
  cases hreverse : cs.reverse with
  | nil => exact (List.reverse_eq_nil_iff.1 hreverse).symm
  | cons c rest =>
    have hc : c ≠ '/' := fun hc ↦ h (by rw [hreverse, hc, List.head?_cons])
    rw [List.dropWhile_cons_of_neg (by simp [hc]), ← hreverse, List.reverse_reverse]

theorem dropLeadingSlashes_of_head? {cs : List Char} (h : cs.head? ≠ some '/') :
    dropLeadingSlashes cs = cs := by
  cases cs with
  | nil => rfl
  | cons c rest =>
    have hc : c ≠ '/' := fun hc ↦ h (congrArg some hc)
    exact List.dropWhile_cons_of_neg (by simp [hc])

theorem dropTrailingSlashes_append_eq (front rest : List Char) :
    dropTrailingSlashes (front ++ rest) =
      if dropTrailingSlashes rest = [] then dropTrailingSlashes front
      else front ++ dropTrailingSlashes rest := by
  simp only [dropTrailingSlashes, List.reverse_append, List.dropWhile_append, List.isEmpty_iff,
    List.reverse_eq_nil_iff]
  split <;> simp

theorem getLast?_escapePath {path : List Char} (h : path.getLast? ≠ some '/') :
    (escapePath path).getLast? ≠ some '/' := by
  rcases List.eq_nil_or_concat' path with rfl | ⟨front, c, rfl⟩
  · nofun
  · intro hlast
    obtain ⟨first, more, hchar⟩ := escapePathChar_eq_cons c
    have hsingle : escapePath [c] = escapePathChar c := List.append_nil _
    rw [escapePath_append, hsingle, List.getLast?_append_of_ne_nil _ (by simp [hchar])] at hlast
    have hc := (of_mem_escapePathChar (List.mem_of_getLast? hlast)).2.1 rfl
    exact h (by rw [hc, List.getLast?_concat])

theorem dropLeadingSlashes_escapePath (path : List Char) :
    dropLeadingSlashes (escapePath path) = escapePath (dropLeadingSlashes path) := by
  induction path with
  | nil => rfl
  | cons c rest ih =>
    by_cases hc : c = '/'
    · rw [hc]
      exact ih
    · have hhead : (c :: rest).head? ≠ some '/' := fun h ↦ hc (Option.some.inj h)
      rw [dropLeadingSlashes_of_head? hhead, dropLeadingSlashes_of_head? (head?_escapePath hhead)]

/-! ## Joined paths -/

theorem joinPath_eq_stem (root partition : String) : joinPath root partition =
    stem root partition ++ String.ofList (dropLeadingSlashes partition.toList) := by
  refine String.toList_injective ?_
  simp only [joinPath, stem, String.toList_append, String.toList_ofList]
  split
  · next hempty => rw [List.isEmpty_iff.1 hempty, List.append_nil, List.append_nil]
  · rw [List.append_assoc, List.singleton_append]

theorem dropLeadingSlashes_escaped (partition : String) :
    dropLeadingSlashes (escaped partition).toList =
      escapePath (dropLeadingSlashes partition.toList) := by
  rw [escaped, String.toList_ofList, dropLeadingSlashes_escapePath]

/-- Joining escapes only what it joins. -/
theorem joinPath_escaped (location partition : String) : joinPath location (escaped partition) =
    stem location partition ++
      String.ofList (escapePath (dropLeadingSlashes partition.toList)) := by
  have hempty : (escapePath (dropLeadingSlashes partition.toList)).isEmpty =
      (dropLeadingSlashes partition.toList).isEmpty := by
    rw [Bool.eq_iff_iff, List.isEmpty_iff, List.isEmpty_iff, escapePath_eq_nil]
  rw [joinPath_eq_stem, stem, stem, dropLeadingSlashes_escaped, hempty]

theorem dropTrailingSlashes_scheme (rest : List Char) :
    dropTrailingSlashes (fileScheme ++ rest) = fileScheme ++ dropTrailingSlashes rest := by
  rw [dropTrailingSlashes_append_eq]
  split
  · next hnil =>
    rw [hnil]
    rfl
  · rfl

theorem getLast?_dropTrailingSlashes (cs : List Char) :
    (dropTrailingSlashes cs).getLast? ≠ some '/' := by
  intro hlast
  have hne : dropTrailingSlashes cs ≠ [] := by
    intro hnil
    rw [hnil] at hlast
    cases hlast
  rw [List.getLast?_eq_some_getLast hne] at hlast
  exact List.rdropWhile_last_not _ _ hne (decide_eq_true (Option.some.inj hlast))

theorem head?_dropLeadingSlashes (cs : List Char) :
    (dropLeadingSlashes cs).head? ≠ some '/' := by
  intro hhead
  have hslash := List.head?_dropWhile_not (· = '/') cs
  rw [dropLeadingSlashes] at hhead
  rw [hhead] at hslash
  cases hslash

theorem getLast?_joinPath {root child : String}
    (h : (dropLeadingSlashes child.toList).getLast? ≠ some '/') :
    (joinPath root child).toList.getLast? ≠ some '/' := by
  simp only [joinPath, String.toList_ofList]
  split
  · exact getLast?_dropTrailingSlashes _
  · next hempty =>
    have hne : dropLeadingSlashes child.toList ≠ [] := mt List.isEmpty_iff.2 hempty
    rw [List.getLast?_append_of_ne_nil _ (List.cons_ne_nil _ _), List.getLast?_cons]
    cases hlast : (dropLeadingSlashes child.toList).getLast? with
    | none => exact absurd (List.getLast?_eq_none_iff.1 hlast) hne
    | some c => exact fun hc ↦ h (hlast.trans hc)

theorem joinPath_of_isEntryName {directory name : String}
    (hdirectory : directory.toList.getLast? ≠ some '/') (hname : IsEntryName name) :
    joinPath directory name = directory ++ "/" ++ name := by
  obtain ⟨c, rest, hcs, hc⟩ := hname
  have hhead : name.toList.head? ≠ some '/' := by
    rw [hcs]
    exact fun h ↦ hc (Option.some.inj h)
  have hempty : name.toList.isEmpty = false := by
    rw [hcs]
    rfl
  refine String.toList_injective ?_
  simp only [joinPath, dropTrailingSlashes_of_getLast? hdirectory,
    dropLeadingSlashes_of_head? hhead, hempty, Bool.false_eq_true, if_false, String.toList_ofList,
    String.toList_append]
  exact (List.append_assoc _ ['/'] _).symm

theorem childPath_of_isEntryName {directory name : String} (hempty : directory.isEmpty = false)
    (hdirectory : directory.toList.getLast? ≠ some '/') (hname : IsEntryName name) :
    childPath directory name = directory ++ "/" ++ name := by
  obtain ⟨c, rest, hcs, hc⟩ := hname
  have habsolute : isAbsolute name = false := by
    rw [isAbsolute, hcs]
    exact decide_eq_false fun h ↦ hc (Option.some.inj h)
  rw [childPath, habsolute, hempty, Bool.or_false, if_neg Bool.false_ne_true, if_neg hdirectory]

theorem isEmpty_of_toList {text : String} {c : Char} {rest : List Char}
    (h : text.toList = c :: rest) : text.isEmpty = false := by
  rw [← Bool.not_eq_true, String.isEmpty_iff, ← String.toList_eq_nil_iff, h]
  exact List.cons_ne_nil c rest

/-! ## Plain URLs of paths -/

section Plain

variable {root partition : String}

theorem fileUrl_ofList (rest : List Char) : fileUrl (String.ofList ('/' :: rest)) =
    String.ofList (fileScheme ++ (['/', '/'] ++ '/' :: escapePath rest)) := by
  have hscheme : fileSchemeHost = fileScheme ++ ['/', '/'] := by decide
  have hslash : escapePath ('/' :: rest) = '/' :: escapePath rest := rfl
  rw [fileUrl, String.toList_ofList, hscheme, hslash, List.append_assoc]

theorem notMem_fileUrl {c : Char} (h : isPathEnd c = true) (hscheme : c ∉ fileSchemeHost)
    (path : String) : c ∉ (fileUrl path).toList := by
  rw [fileUrl, String.toList_ofList, List.mem_append, not_or]
  refine ⟨hscheme, fun hmem ↦ ?_⟩
  cases h.symm.trans (of_mem_escapePath hmem).1.not_isPathEnd

theorem cleanInput_fileUrl (rest : List Char) :
    Url.cleanInput (fileUrl (String.ofList ('/' :: rest))) ∉
      [fileSchemeHost, fileScheme ++ ['\\', '/']] := by
  have hseven : ∀ text ∈ [fileSchemeHost, fileScheme ++ ['\\', '/']], text.length = 7 := by decide
  rw [fileUrl_ofList, Url.cleanInput_append]
  intro hmem
  have hlength := hseven _ hmem
  have hscheme : fileScheme.length = 5 := rfl
  have hslashes : (['/', '/'].filter fun c ↦ !isTabOrNewline c).length = 2 := rfl
  rw [List.length_append, List.length_append, List.length_cons, hscheme, hslashes] at hlength
  omega

theorem stem_of_getLast? (h : root.toList.getLast? ≠ some '/') (partition : String) :
    stem root partition = String.ofList (root.toList ++
      if (dropLeadingSlashes partition.toList).isEmpty then [] else ['/']) := by
  rw [stem, dropTrailingSlashes_of_getLast? h]

theorem stem_fileUrl (h : IsLocal root.toList) (partition : String) :
    stem (fileUrl root) partition = fileUrl (stem root partition) := by
  have hne : escapePath root.toList ≠ [] := by
    obtain ⟨rest, hrest, -⟩ := h.absolute
    rw [ne_eq, escapePath_eq_nil, hrest]
    exact List.cons_ne_nil _ _
  have hlast : (fileUrl root).toList.getLast? ≠ some '/' := by
    rw [fileUrl, String.toList_ofList, List.getLast?_append_of_ne_nil _ hne]
    exact getLast?_escapePath h.open_end
  have hescape : escapePath (if (dropLeadingSlashes partition.toList).isEmpty then [] else ['/']) =
      if (dropLeadingSlashes partition.toList).isEmpty then [] else ['/'] := by
    split <;> rfl
  rw [stem_of_getLast? hlast, stem_of_getLast? h.open_end, fileUrl, fileUrl, String.toList_ofList,
    String.toList_ofList, escapePath_append, hescape, List.append_assoc]

theorem stem_of_isLocal (h : IsLocal root.toList) {rest : List Char}
    (hrest : root.toList = '/' :: rest) (partition : String) : ∃ more,
      stem root partition = String.ofList ('/' :: more) ∧ IsRelative more ∧
        isDriveLetter (('/' :: more).drop (('/' :: more).length - 2)) = false := by
  have hrelative := h.isRelative hrest
  rw [stem_of_getLast? h.open_end, hrest]
  split
  · rw [List.append_nil]
    exact ⟨rest, rfl, hrelative, hrest ▸ h.no_drive⟩
  · have hne : rest ≠ [] := fun hnil ↦ h.open_end (by rw [hrest, hnil]; rfl)
    refine ⟨rest ++ ['/'], rfl, hrelative.append_slash hne, ?_⟩
    exact Url.not_isDriveLetter_of_slash ('/' :: rest)

/-- A partition with which a root is a path of its own names a directory below the root. -/
theorem isBelow_of_isLocal (h : IsLocal (joinPath root partition).toList) :
    IsBelow root partition := by
  have hno := h.no_drive
  obtain ⟨hchild, hlast⟩ : IsRelative (dropLeadingSlashes partition.toList) ∧
      (dropLeadingSlashes partition.toList).getLast? ≠ some '/' := by
    have hjoin : (joinPath root partition).toList =
        if (dropLeadingSlashes partition.toList).isEmpty then dropTrailingSlashes root.toList
        else dropTrailingSlashes root.toList ++ '/' :: dropLeadingSlashes partition.toList := by
      rw [joinPath, String.toList_ofList]
    by_cases hempty : dropLeadingSlashes partition.toList = []
    · rw [hempty]
      exact ⟨Url.isRelative_nil, nofun⟩
    · rw [if_neg (mt List.isEmpty_iff.1 hempty)] at hjoin
      rw [hjoin] at h
      have hparts : ∀ part ∈ Url.splitOnChar '/' (dropLeadingSlashes partition.toList),
          part ∈ Url.splitOnChar '/' (dropTrailingSlashes root.toList ++
            '/' :: dropLeadingSlashes partition.toList) := by
        intro part hpart
        rw [splitOnChar_eq_splitOn, List.splitOn_append_cons_self, ← splitOnChar_eq_splitOn,
          ← splitOnChar_eq_splitOn]
        exact List.mem_append_right _ hpart
      have hend := h.open_end
      rw [List.getLast?_append_of_ne_nil _ (List.cons_ne_nil _ _),
        List.getLast?_cons_of_ne_nil hempty] at hend
      exact ⟨⟨head?_dropLeadingSlashes _, fun part hpart ↦ h.no_dots part (hparts part hpart),
        fun hbar ↦ h.no_bar (List.mem_append_right _ (List.mem_cons_of_mem _ hbar))⟩, hend⟩
  exact ⟨hchild, hlast, hno⟩

end Plain

/-! ## Where URLs lead -/

section Spelling

variable [DomainNames] {location root partition text path : String}

/-- Text is read as a URL if it has the scheme of files. -/
theorem localPath_eq_url_iff : localPath text = .ok (path, true) ↔
    fileScheme <+: text.toList ∧ (Url.parse? text).bind Url.localPath? = some path := by
  unfold localPath
  rw [← List.isPrefixOf_iff_prefix]
  change (if fileScheme.isPrefixOf text.toList = true then _ else _) = _ ↔ _
  split
  · next hscheme =>
    split
    · next found hfound => simp [hscheme, hfound]
    · next hnone => simp [hnone]
  · next hscheme => simp [hscheme]

/-- A URL that leads to a root is a location on disk. -/
theorem location_of_localPath (h : localPath location = .ok (root, true))
    (options : StoreOptions) : Location.of location options = .ok .disk := by
  obtain ⟨⟨rest, hrest⟩, hurl⟩ := localPath_eq_url_iff.1 h
  obtain ⟨url, hparse, -⟩ := Option.bind_eq_some_iff.1 hurl
  have hstore : namesStore url = false := by
    rw [namesStore, Url.scheme_of_parse? hrest.symm hparse]
    rfl
  simp only [Location.of, hparse, hstore, Bool.false_eq_true, if_false]

/-- It is listed under an absolute path. -/
theorem head?_of_localPath (h : localPath location = .ok (path, true)) :
    path.toList.head? = some '/' := by
  obtain ⟨url, -, hurl⟩ := Option.bind_eq_some_iff.1 (localPath_eq_url_iff.1 h).2
  exact Url.head?_of_localPath? hurl

theorem localPath_of_head? (h : path.toList.head? = some '/') :
    localPath path = .ok (path, false) := by
  rw [localPath, if_neg]
  intro hfile
  obtain ⟨rest, hrest⟩ := List.isPrefixOf_iff_prefix.1 hfile
  rw [← hrest] at h
  cases h

/-- An escaped path behind the slash of a URL leads to the path behind the root. -/
theorem localPath_append {front child : List Char} (hfront : ∀ c ∈ front, isPathEnd c = false)
    (hopen : ∀ c, (front.filter fun c ↦ !isTabOrNewline c) = [c] → isSlash true c = false)
    (hroot : localPath (String.ofList (fileScheme ++ (front ++ ['/']))) = .ok (root, true))
    (hchild : IsRelative child)
    (hdrive : isDriveLetter ((root.toList ++ child).drop ((root.toList ++ child).length - 2)) =
      false) :
    localPath (String.ofList (fileScheme ++ (front ++ '/' :: escapePath child))) =
      .ok (root ++ String.ofList child, true) := by
  have hscheme (tail : List Char) : fileScheme <+: (String.ofList (fileScheme ++ tail)).toList := by
    rw [String.toList_ofList]
    exact List.prefix_append _ _
  obtain ⟨authority, path, hparse⟩ := Url.parse?_append hfront hopen
  have hempty : Url.parse? (String.ofList (fileScheme ++ (front ++ ['/']))) =
      Option.map (onHost · (path ++ ['/'])) authority := hparse [] Url.isRelative_nil
  have hleads := (localPath_eq_url_iff.1 hroot).2
  refine localPath_eq_url_iff.2 ⟨hscheme _, ?_⟩
  rw [hempty] at hleads
  rw [hparse child hchild]
  cases authority with
  | none => cases hleads
  | some authority => exact Url.localPath?_onHost hleads hdrive

/-- The escaped partition leads to the partition, wherever a spelling of its root leads. -/
theorem Spells.localPath_joinPath (h : Spells location root partition)
    (hbelow : IsBelow root partition) :
    localPath (joinPath location (escaped partition)) = .ok (joinPath root partition, true) := by
  obtain ⟨rest, hrest⟩ := (localPath_eq_url_iff.1 h.leads).1
  have hleads := h.leads_stem
  have hdrive := hbelow.no_drive
  rw [joinPath_eq_stem, String.toList_append, String.toList_ofList] at hdrive
  rw [joinPath_escaped, joinPath_eq_stem]
  by_cases hchild : dropLeadingSlashes partition.toList = []
  · have hempty : escapePath [] = [] := rfl
    rw [hchild, hempty, String.ofList_nil, String.append_empty, String.append_empty]
    exact hleads
  · have hstem : stem location partition =
        String.ofList (fileScheme ++ (dropTrailingSlashes rest ++ ['/'])) := by
      rw [stem, if_neg (mt List.isEmpty_iff.1 hchild), ← hrest, dropTrailingSlashes_scheme,
        List.append_assoc]
    have hfront : ∀ c ∈ dropTrailingSlashes rest, isPathEnd c = false := by
      intro c hc
      have hmem : c ∈ location.toList := by
        rw [← hrest]
        exact List.mem_append_right _ ((List.rdropWhile_prefix (· = '/') rest).subset hc)
      exact Bool.or_eq_false_iff.2 ⟨decide_eq_false fun hquery ↦ h.no_query (hquery ▸ hmem),
        decide_eq_false fun hfragment ↦ h.no_fragment (hfragment ▸ hmem)⟩
    have hopen : ∀ c, (dropTrailingSlashes rest).filter (fun c ↦ !isTabOrNewline c) = [c] →
        isSlash true c = false := by
      intro c hc
      have hclean : Url.cleanInput (stem location partition) = fileScheme ++ [c, '/'] := by
        have hclosed : fileScheme ++ [c, '/'] = fileScheme ++ ([c] ++ ['/']) := rfl
        rw [hstem, hclosed, ← hc]
        exact Url.cleanInput_append _ []
      have hhost := h.no_host
      rw [hclean] at hhost
      by_contra hslash
      simp only [isSlash, Bool.true_and, Bool.not_eq_false, Bool.or_eq_true,
        decide_eq_true_iff] at hslash
      rcases hslash with rfl | rfl <;> exact hhost (by decide)
    rw [hstem] at hleads
    have hjoin := localPath_append hfront hopen hleads hbelow.relative hdrive
    rwa [hstem, ← String.ofList_append, List.append_assoc, List.append_assoc]

/-- The URLs of the root directory. -/
theorem localPath_rootUrl (text : String) (h : text = "file:/" ∨ text = "file:///") :
    localPath text = .ok ("/", true) := by
  have hroot : (onHost ⟨"", none, "", none⟩ ['/']).localPath? = some "/" := by decide +kernel
  rcases h with rfl | rfl
  · have hparse : Url.parse? "file:/" = some (onHost ⟨"", none, "", none⟩ ['/']) := rfl
    exact localPath_eq_url_iff.2 ⟨by decide, hparse ▸ hroot⟩
  · have hparse : Url.parse? "file:///" = some (onHost ⟨"", none, "", none⟩ ['/']) := rfl
    exact localPath_eq_url_iff.2 ⟨by decide, hparse ▸ hroot⟩

/-- The plain URL of an absolute path leads to the path. -/
theorem localPath_fileUrl {rest : List Char} (hrest : IsRelative rest)
    (hdrive : isDriveLetter (('/' :: rest).drop (('/' :: rest).length - 2)) = false) :
    localPath (fileUrl (String.ofList ('/' :: rest))) =
      .ok (String.ofList ('/' :: rest), true) := by
  have hroot := localPath_rootUrl "file:///" (.inr rfl)
  have hopen : ∀ c, ['/', '/'].filter (fun c ↦ !isTabOrNewline c) = [c] → isSlash true c = false :=
    fun c hc ↦ (by cases hc)
  have hslashes : ∀ c ∈ ['/', '/'], isPathEnd c = false :=
    List.forall_mem_cons.2 ⟨rfl, List.forall_mem_singleton.2 rfl⟩
  have hpath := localPath_append hslashes hopen hroot hrest hdrive
  rw [fileUrl_ofList, hpath, String.ofList_cons]
  rfl

/-- The plain URL of a root is one of its spellings. -/
theorem spells_fileUrl (hroot : root = "/" ∨ IsLocal root.toList)
    (hlocal : IsLocal (joinPath root partition).toList) : Spells (fileUrl root) root partition := by
  have hquery : '?' ∉ (fileUrl root).toList := notMem_fileUrl rfl (by decide) root
  have hfragment : '#' ∉ (fileUrl root).toList := notMem_fileUrl rfl (by decide) root
  rcases hroot with rfl | hroot
  · have hchild : dropLeadingSlashes partition.toList ≠ [] := by
      intro hchild
      obtain ⟨rest, hrest, -⟩ := hlocal.absolute
      rw [joinPath, hchild] at hrest
      cases hrest
    have hstem (location : String) : stem location partition =
        String.ofList (dropTrailingSlashes location.toList ++ ['/']) := by
      rw [stem, if_neg (mt List.isEmpty_iff.1 hchild)]
    have hurl : fileUrl "/" = "file:///" := by decide
    have hfront : String.ofList (dropTrailingSlashes "file:///".toList ++ ['/']) = "file:/" := by
      decide
    have hback : String.ofList (dropTrailingSlashes "/".toList ++ ['/']) = "/" := by decide
    refine ⟨?_, ?_, hquery, hfragment, ?_⟩
    · exact hurl ▸ localPath_rootUrl _ (.inr rfl)
    · rw [hstem, hstem, hurl, hfront, hback]
      exact localPath_rootUrl _ (.inl rfl)
    · rw [hstem, hurl, hfront]
      decide
  · obtain ⟨rest, hrest, -⟩ := hroot.absolute
    obtain ⟨more, hstem, hmore, hdrive⟩ := stem_of_isLocal hroot hrest partition
    have hname : root = String.ofList ('/' :: rest) := by rw [← hrest, String.ofList_toList]
    have hleads := localPath_fileUrl (hroot.isRelative hrest) (hrest ▸ hroot.no_drive)
    refine ⟨?_, ?_, hquery, hfragment, ?_⟩
    · rw [hname]
      exact hleads
    · rw [stem_fileUrl hroot, hstem]
      exact localPath_fileUrl hmore hdrive
    · rw [stem_fileUrl hroot, hstem]
      exact cleanInput_fileUrl more

/-! ## The same directory under two names -/

variable {σ : Type} [MonadFileSystem (StateM σ)]

/-- Whatever names a local directory, its entries are listed below that name. -/
theorem listDisk_of_localPath {directory path : String} {isUrl : Bool}
    (hlocal : localPath directory = .ok (path, isUrl)) (hempty : directory.isEmpty = false)
    (hlast : directory.toList.getLast? ≠ some '/') {state state' : σ}
    {result : Except OsError (List Listed)}
    (hlist : (listDir path : StateM σ _) state = (result, state'))
    (hnames : ∀ listed, result = .ok listed → ∀ entry ∈ listed, IsEntryName entry.name) :
    (listDisk directory : StateM σ _) state = (outcomeBelow directory result, state') := by
  have hentries (listed : List Listed) (hok : result = .ok listed) :
      listed.map (localEntry directory isUrl) = listed.map fun entry ↦
        if entry.isDir then .dir (directory ++ "/" ++ entry.name)
        else .file (directory ++ "/" ++ entry.name) entry.size := by
    refine List.map_congr_left fun entry hentry ↦ ?_
    have hname := hnames listed hok entry hentry
    simp only [localEntry, joinPath_of_isEntryName hlast hname,
      childPath_of_isEntryName hempty hlast hname, ite_self]
  unfold listDisk
  simp only [hlocal]
  change (match ((listDir path : StateM σ _) state).1 with
    | .error e => (pure (.error (ofOsError directory e)) : StateM σ (Except _ (List Entry)))
    | .ok listed => pure (.ok (listed.map (localEntry directory isUrl))))
      ((listDir path : StateM σ _) state).2 = _
  rw [hlist]
  cases result with
  | error cause => rfl
  | ok listed =>
    change (Except.ok (listed.map (localEntry directory isUrl)), state') = _
    rw [hentries listed rfl]
    rfl

/-- The URL of a local directory lists the directories of the plain path, however it is spelled:
joined to an escaped partition, it has the outcome of the plain path joined to the partition. -/
theorem listDisk_fileUrl (h : Spells location root partition) (hbelow : IsBelow root partition)
    (options : StoreOptions) (state : σ)
    (hnames : ∀ listed, ((listDir (joinPath root partition) : StateM σ _) state).1 = .ok listed →
      ∀ entry ∈ listed, IsEntryName entry.name) :
    Location.of location options = .ok .disk ∧
      localPath location = .ok (root, true) ∧
      ∃ result state',
        (listDisk (joinPath location (escaped partition)) : StateM σ _) state =
          (outcomeBelow (joinPath location (escaped partition)) result, state') ∧
        (listDisk (joinPath root partition) : StateM σ _) state =
          (outcomeBelow (joinPath root partition) result, state') := by
  have hurl := h.localPath_joinPath hbelow
  have hpath := head?_of_localPath hurl
  have hlist : (listDir (joinPath root partition) : StateM σ _) state =
      (((listDir (joinPath root partition) : StateM σ _) state).1,
        ((listDir (joinPath root partition) : StateM σ _) state).2) := rfl
  have hend : (dropLeadingSlashes (escaped partition).toList).getLast? ≠ some '/' := by
    rw [dropLeadingSlashes_escaped]
    exact getLast?_escapePath hbelow.open_end
  have hempty : (joinPath location (escaped partition)).isEmpty = false := by
    obtain ⟨rest, hrest⟩ := (localPath_eq_url_iff.1 hurl).1
    exact isEmpty_of_toList hrest.symm
  have hempty' : (joinPath root partition).isEmpty = false := by
    obtain ⟨rest, hrest⟩ := List.head?_eq_some_iff.1 hpath
    exact isEmpty_of_toList hrest
  exact ⟨location_of_localPath h.leads options, h.leads, _, _,
    listDisk_of_localPath hurl hempty (getLast?_joinPath hend) hlist hnames,
    listDisk_of_localPath (localPath_of_head? hpath) hempty'
      (getLast?_joinPath hbelow.open_end) hlist hnames⟩

end Spelling

/-! ## Two directories whose URLs begin alike -/

/-- Directories `d` and `d#1` with a file in each. -/
def markedTree : FileTree :=
  ((((FileTree.empty []).insertNode ["w"] .dir).insertNode ["w", "d"] .dir).insertNode
    ["w", "d", "other"] (.file (.bytes [120]))).insertNode ["w", "d#1"] .dir |>.insertNode
    ["w", "d#1", "part-0"] (.file (.bytes [97, 98, 99]))

def markedMachine : Machine :=
  ⟨markedTree, .empty, 0, 0⟩

theorem linkFree_markedTree : markedTree.LinkFree := by
  have hdir (target : String) : Node.dir ≠ .link target := by simp
  have hfile (content : Content) (target : String) : Node.file content ≠ .link target := by simp
  exact ((((FileTree.linkFree_empty.insertNode _ hdir).insertNode _ hdir).insertNode _
    (hfile _)).insertNode _ hdir).insertNode _ (hfile _)

theorem listDir_marked :
    (listDir "/w/d" : MachineM _) markedMachine =
        (.ok [⟨"other", false, 1⟩], markedMachine) ∧
      (listDir "/w/d#1" : MachineM _) markedMachine =
        (.ok [⟨"part-0", false, 3⟩], markedMachine) := by
  have hplain : markedTree.resolve true "/w/d" = .ok (.found ["w", "d"] .dir) :=
    linkFree_markedTree.resolve_eq_ok.2 (by decide +kernel)
  have hmarked : markedTree.resolve true "/w/d#1" = .ok (.found ["w", "d#1"] .dir) :=
    linkFree_markedTree.resolve_eq_ok.2 (by decide +kernel)
  change (markedTree.list "/w/d", markedMachine) = _ ∧ (markedTree.list "/w/d#1", _) = _
  unfold FileTree.list
  rw [hplain, hmarked]
  exact ⟨rfl, rfl⟩

theorem isLocal_marked : IsLocal "/w".toList ∧ IsLocal "/w/d#1".toList := by
  refine ⟨⟨⟨['w'], ?_⟩, ?_, ?_, ?_, ?_⟩, ⟨⟨['w', '/', 'd', '#', '1'], ?_⟩, ?_, ?_, ?_, ?_⟩⟩ <;>
    decide

theorem isEntryName_marked (name : String) (size : UInt64) (h : name = "other" ∨ name = "part-0") :
    ∀ listed, (Except.ok [⟨name, false, size⟩] : Except OsError (List Listed)) = .ok listed →
      ∀ entry ∈ listed, IsEntryName entry.name := by
  have hother : IsEntryName "other" := ⟨'o', "ther".toList, by decide⟩
  have hpart : IsEntryName "part-0" := ⟨'p', "art-0".toList, by decide⟩
  rintro _ ⟨⟩ entry hentry
  rw [List.mem_singleton.1 hentry]
  rcases h with rfl | rfl
  exacts [hother, hpart]

/-- A URL that names this machine and takes a detour. -/
theorem spells_detour : Spells "file://localhost/x/../w" "/w" "d#1" := by
  constructor <;> decide +kernel

theorem listDisk_fileUrl_marked :
    fileUrl "/w" = "file:///w" ∧ escaped "d#1" = "d%231" ∧
      (Location.of (fileUrl "/w") .empty = .ok .disk ∧ localPath (fileUrl "/w") = .ok ("/w", true) ∧
        ∃ result state',
          (listDisk (joinPath (fileUrl "/w") (escaped "d#1")) : MachineM _) markedMachine =
            (outcomeBelow (joinPath (fileUrl "/w") (escaped "d#1")) result, state') ∧
          (listDisk (joinPath "/w" "d#1") : MachineM _) markedMachine =
            (outcomeBelow (joinPath "/w" "d#1") result, state')) ∧
      Location.of "file://localhost/x/../w" .empty = .ok .disk ∧
        localPath "file://localhost/x/../w" = .ok ("/w", true) ∧
        ∃ result state',
          (listDisk (joinPath "file://localhost/x/../w" (escaped "d#1")) : MachineM _)
              markedMachine =
            (outcomeBelow (joinPath "file://localhost/x/../w" (escaped "d#1")) result, state') ∧
          (listDisk (joinPath "/w" "d#1") : MachineM _) markedMachine =
            (outcomeBelow (joinPath "/w" "d#1") result, state') := by
  have hjoin : joinPath "/w" "d#1" = "/w/d#1" := by decide
  obtain ⟨hroot, hlocal⟩ := isLocal_marked
  rw [← hjoin] at hlocal
  have hnames : ∀ listed, ((listDir (joinPath "/w" "d#1") : MachineM _) markedMachine).1 =
      .ok listed → ∀ entry ∈ listed, IsEntryName entry.name := by
    rw [hjoin, listDir_marked.2]
    exact isEntryName_marked _ _ (.inr rfl)
  have hbelow := isBelow_of_isLocal hlocal
  exact ⟨by decide, by decide,
    listDisk_fileUrl (spells_fileUrl (.inr hroot) hlocal) hbelow .empty markedMachine hnames,
    listDisk_fileUrl spells_detour hbelow .empty markedMachine hnames⟩

/-- A partition that is not escaped is cut where a URL has its fragment: a URL location lists
another directory than the plain path that it names. -/
theorem listDisk_fileUrl_cut :
    Location.of "file:///w" .empty = .ok .disk ∧ localPath "file:///w" = .ok ("/w", true) ∧
      (listDisk (joinPath "file:///w" "d#1") : MachineM _) markedMachine =
        (.ok [.file "file:///w/d#1/other" 1], markedMachine) ∧
      (listDisk (joinPath "/w" "d#1") : MachineM _) markedMachine =
        (.ok [.file "/w/d#1/part-0" 3], markedMachine) := by
  have hjoinUrl : joinPath "file:///w" "d#1" = "file:///w/d#1" := by decide
  have hjoin : joinPath "/w" "d#1" = "/w/d#1" := by decide
  have hcut : localPath "file:///w/d#1" = .ok ("/w/d", true) := by decide +kernel
  have hplain : localPath "/w/d#1" = .ok ("/w/d#1", false) := by decide +kernel
  refine ⟨by decide +kernel, by decide +kernel, ?_, ?_⟩
  · rw [hjoinUrl, listDisk_of_localPath hcut (by decide) (by decide) listDir_marked.1
      (isEntryName_marked _ _ (.inl rfl))]
    rfl
  · rw [hjoin, listDisk_of_localPath hplain (by decide) (by decide) listDir_marked.2
      (isEntryName_marked _ _ (.inr rfl))]
    rfl

end Storage

end CommitCoordinator
