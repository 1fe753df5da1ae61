import CommitCoordinator.Proofs.Storage.Creating
import CommitCoordinator.Proofs.Storage.Replacement

/-!
# Files that failed replacements leave alone

A replacement that fails may leave new directories and a draft behind. They are not seen by whoever
reads the file, and they make no difference for later replacements, as long as the directories are
not in the way of the file and the draft is not on the way to it.
-/

namespace CommitCoordinator.Storage

namespace FileTree

variable {tree base other : FileTree} {path : String} {route : Route} {place : Place}

/-! ## The way to a file -/

/-- Whether the walk along a path comes by the end of a route, at its last name or before. -/
def ComesBy (tree : FileTree) (path : String) (route : Route) : Prop :=
  ∃ links here part rest, tree.Passes (tree.setOut path) ⟨links, here, part :: rest⟩ ∧
    IsName part ∧ route = here ++ [part]

theorem resolve_of_not_usable (h : ¬Usable path) (tree other : FileTree) (followLast : Bool) :
    tree.resolve followLast path = other.resolve followLast path := by
  unfold resolve
  split
  · rfl
  · next hnul =>
    split
    · rfl
    · next hempty =>
      split
      · rfl
      · next hlength => exact absurd ⟨hnul, hempty, hlength⟩ h

/-- What stands at the place of a file is a file if it is anything. -/
theorem eq_file_of_fileRoute (h : tree.resolve true path = .ok place)
    (hplace : place.fileRoute? = some route) (node : Node) (hnode : tree.node? route = some node) :
    ∃ content, node = .file content := by
  rw [resolve_of_usable (usable_of_resolve h)] at h
  obtain ⟨_, _, _, -, -, -, hfile⟩ := passes_of_fileRoute h hplace
  exact hfile node hnode

/-- A file that was written is found. -/
theorem resolve_insertNode (h : tree.resolve true path = .ok place)
    (hplace : place.fileRoute? = some route) (content : Content) :
    (tree.insertNode route (.file content)).resolve true path =
      .ok (.found route (.file content)) := by
  have husable := usable_of_resolve h
  rw [resolve_of_usable husable] at h ⊢
  obtain ⟨links, here, part, hway, hname, rfl, hfile⟩ := passes_of_fileRoute h hplace
  have hnode := node?_insertNode_self tree (List.concat_ne_nil part here) (.file content)
  have hwalk := (hway.insertNode (.file content) hfile).walk_eq true [] (.inl rfl)
  rw [List.append_nil, List.append_nil] at hwalk
  exact hwalk.trans (hname.walk_file hnode)

/-- A file that is not on the way to a path makes no difference for who reads the path. -/
theorem read_insertNode
    (hfile : ∀ node, tree.node? route = some node → ∃ content, node = .file content)
    (h : ¬tree.ComesBy path route) (content : Content) :
    (tree.insertNode route (.file content)).read path = tree.read path := by
  have hresolve : (tree.insertNode route (.file content)).resolve true path =
      tree.resolve true path := by
    by_cases husable : Usable path
    · obtain ⟨next, hway, hhalts⟩ :=
        tree.exists_halts maxLinks (tree.start path) (pathParts path)
      have hwalk := (hway.insertNode (.file content) hfile).walk_eq true [] (.inl rfl)
      have hwalk' := hway.walk_eq true [] (.inl rfl)
      simp only [List.append_nil] at hwalk hwalk'
      rw [resolve_of_usable husable, resolve_of_usable husable]
      refine hwalk.trans (.trans (hhalts.walk_congr ?_ true) hwalk'.symm)
      obtain ⟨links, here, parts⟩ := next
      rintro part rest rfl hname
      refine node?_insertNode_of_ne tree (fun heq ↦ h ?_) _
      exact ⟨links, here, part, rest, hway, hname, heq.symm⟩
    · exact resolve_of_not_usable husable _ _ _
  rw [read, read, hresolve]

/-! ## What failed replacements leave behind -/

/-- Whether a draft of a file would come to a place that the way to the file does not come by. -/
def DraftApart (tree : FileTree) (path : String) : Prop :=
  ∀ place route, tree.resolve true (draftPath path) = .ok place →
    place.fileRoute? = some route → ¬tree.ComesBy path route

/-- Whether failed replacements cannot touch a file. -/
structure Sheltered (tree : FileTree) (path : String) : Prop where
  /-- The directory of the file can be created completely or not at all. -/
  whole : (tree.parentCreated path none).2 = .ok () ∨ (tree.parentCreated path none).1 = tree
  /-- The directories that are created are not in the way of the file. -/
  clear : (tree.parentCreated path none).1.read path = tree.read path
  /-- Nor is the draft on the way to it. -/
  apart : (tree.parentCreated path none).1.DraftApart path

/-- Whether a tree has the directory of a file, and a draft does not get in its way. -/
structure Furnishes (base : FileTree) (path : String) : Prop where
  dir (parent : String) (hparent : parent? path = some parent) : parent = "" ∨ base.isDirAt parent
  apart : base.DraftApart path

/-- Whether a tree is another one, except perhaps for a draft. -/
inductive Prepared (base : FileTree) (path : String) (tree : FileTree) : Prop where
  | blank (h : tree.Alike base)
  | drafted {content : Content} {written : FileTree}
      (hwrite : base.write (draftPath path) content = .ok written) (h : tree.Alike written)

/-- Whether a tree is another one, except perhaps for a draft, or becomes this one when the
directory of the file is created. -/
inductive Preparable (base : FileTree) (path : String) (tree : FileTree) : Prop where
  | prepared (h : Prepared base path tree)
  | ahead {made : FileTree} (hmade : tree.parentCreated path none = (made, .ok ()))
      (h : made.Alike base) (hread : tree.read path = base.read path)

theorem parentCreated_eq_ok {parent : String} (hparent : parent? path = some parent)
    {made : FileTree} : tree.parentCreated path none = (made, .ok ()) ↔
      tree.createDirsTo parent = (made, .ok ()) := by
  rw [parentCreated, hparent]
  change outcomeAt parent (tree.createDirsTo parent) = _ ↔ _
  obtain ⟨created, result⟩ := tree.createDirsTo parent
  cases result <;> simp [outcomeAt, Except.mapError]

theorem parentCreated_of_isDirAt
    (h : ∀ parent, parent? path = some parent → parent = "" ∨ tree.isDirAt parent) :
    tree.parentCreated path none = (tree, .ok ()) := by
  unfold parentCreated
  cases hparent : parent? path with
  | none => rfl
  | some parent =>
    dsimp only [createDirsFailing]
    rw [createDirsTo_of_isDirAt (h parent hparent)]
    rfl

namespace Prepared

variable {content : Content}

theorem isDirAt (hbase : base.Furnishes path) (h : Prepared base path tree) {parent : String}
    (hparent : parent? path = some parent) : parent = "" ∨ tree.isDirAt parent := by
  refine (hbase.dir parent hparent).imp_right fun hdir ↦ ?_
  cases h with
  | blank h => exact (h.isDirAt_eq parent).trans hdir
  | drafted hwrite h =>
    obtain ⟨place, route, hresolve, hplace, rfl⟩ := write_eq_ok hwrite
    obtain ⟨husable, links, home, hway⟩ := passes_of_isDirAt hdir
    have hfile := eq_file_of_fileRoute hresolve hplace
    exact (h.isDirAt_eq parent).trans (isDirAt_of_passes husable (hway.insertNode _ hfile))

theorem read_eq (hbase : base.Furnishes path) (h : Prepared base path tree) :
    tree.read path = base.read path := by
  cases h with
  | blank h => exact h.read_eq path
  | drafted hwrite h =>
    obtain ⟨place, route, hresolve, hplace, rfl⟩ := write_eq_ok hwrite
    rw [h.read_eq, read_insertNode (eq_file_of_fileRoute hresolve hplace)
      (hbase.apart place route hresolve hplace)]

/-- A draft that was left behind does not matter for the next one. -/
theorem write (h : Prepared base path tree) (content : Content) :
    AlikeResults (tree.write (draftPath path) content) (base.write (draftPath path) content) := by
  cases h with
  | blank h => exact h.write (draftPath path) content
  | @drafted old _ hwrite h =>
    obtain ⟨place, route, hresolve, hplace, rfl⟩ := write_eq_ok hwrite
    have hwritten := h.write (draftPath path) content
    rw [write_of_fileRoute (resolve_insertNode hresolve hplace old) rfl] at hwritten
    rw [write_of_fileRoute hresolve hplace]
    generalize tree.write (draftPath path) content = changed at hwritten
    cases hwritten with
    | ok hchanged => exact .ok (hchanged.trans (.overwrite base route _ _))

/-- An attempt to write the draft comes to the same result as on the other tree. -/
theorem attempted (h : Prepared base path tree) (content : Content) :
    let outcome := tree.attempted (tree.write (draftPath path) content)
    let outcome' := base.attempted (base.write (draftPath path) content)
    Prepared base path outcome.1 ∧ outcome.2 = outcome'.2 ∧
      (outcome.2 = .ok () → outcome.1.Alike outcome'.1) := by
  have hwritten := h.write content
  generalize hchanged : tree.write (draftPath path) content = changed at hwritten
  generalize hchanged' : base.write (draftPath path) content = changed' at hwritten
  cases hwritten with
  | ok halike => exact ⟨.drafted hchanged' halike, rfl, fun _ ↦ halike⟩
  | error cause => exact ⟨h, rfl, nofun⟩

theorem writeFailing (h : Prepared base path tree) (bytes : List UInt8)
    (fault : Option ReplaceFault) :
    let outcome := tree.writeFailing (draftPath path) bytes fault
    let outcome' := base.writeFailing (draftPath path) bytes fault
    Prepared base path outcome.1 ∧ outcome.2 = outcome'.2 ∧
      (outcome.2 = .ok () → outcome.1.Alike outcome'.1) := by
  rcases fault with _ | _ | ⟨length, cause⟩ | _
  · exact h.attempted (.bytes bytes)
  · exact h.attempted (.bytes bytes)
  · cases length with
    | none => exact ⟨h, rfl, nofun⟩
    | some length =>
      refine ⟨?_, rfl, nofun⟩
      dsimp only [FileTree.writeFailing, Option.map_some, Option.getD_some]
      exact (h.attempted (.bytes (bytes.take length))).1
  · exact h.attempted (.bytes bytes)

end Prepared

theorem createDirsTo_of_ancestor? {dir above : String} {levels : Nat}
    (h : dir = "" ∨ tree.isDirAt dir)
    (habove : FailingMachine.ancestor? dir levels = some above) :
    tree.createDirsTo above = (tree, .ok ()) := by
  apply createDirsTo_of_isDirAt
  rcases isInside_of_ancestor? habove with rfl | hinside
  · exact h
  · rcases h with rfl | hdir
    · exact absurd hinside.1 (Nat.not_lt_zero _)
    · exact isDirAt_of_isInside hinside hdir

theorem read_of_resolve_missing (h : tree.resolve true path = .error .notFound) :
    tree.read path = .error .notFound := by
  rw [read, h]

namespace Preparable

theorem read_eq (hbase : base.Furnishes path) (h : Preparable base path tree) :
    tree.read path = base.read path := by
  cases h with
  | prepared h => exact h.read_eq hbase
  | ahead _ _ hread => exact hread

/-- Nothing is there to be read where directories still have to be created. -/
theorem read_of_createDirsTo {dir : String} {made : FileTree} (hinside : IsInside dir path)
    (hmade : tree.createDirsTo dir = (made, .ok ())) (halike : made.Alike base)
    (hmissing : base.read path = .error .notFound) : tree.read path = base.read path := by
  by_cases husable : Usable path
  · rcases @createDirsTo_fst_or dir path tree hinside husable with hsame | hresolve
    · rw [hmade] at hsame
      rw [← hsame, halike.read_eq]
    · rw [read_of_resolve_missing (hresolve true), hmissing]
  · rw [FileTree.read, FileTree.read, resolve_of_not_usable husable tree base]

/-- The directory of the file can be created. -/
theorem createDirsTo (hbase : base.Furnishes path) (h : Preparable base path tree)
    {parent : String} (hparent : parent? path = some parent) :
    ∃ made, tree.createDirsTo parent = (made, .ok ()) ∧ Prepared base path made := by
  cases h with
  | prepared h => exact ⟨tree, createDirsTo_of_isDirAt (h.isDirAt hbase hparent), h⟩
  | ahead hmade halike _ => exact ⟨_, (parentCreated_eq_ok hparent).1 hmade, .blank halike⟩

/-- It can still be created when only directories above it were. -/
theorem createDirsTo_above (hbase : base.Furnishes path) (h : Preparable base path tree)
    {parent above : String} (hparent : parent? path = some parent) {levels : Nat}
    (habove : FailingMachine.ancestor? parent levels = some above) :
    Preparable base path (tree.createDirsTo above).1 := by
  cases h with
  | prepared h =>
    rw [createDirsTo_of_ancestor? (h.isDirAt hbase hparent) habove]
    exact .prepared h
  | @ahead made hmade halike hread =>
    rw [parentCreated_eq_ok hparent] at hmade
    have hlater := createDirsTo_ancestor habove hmade
    refine .ahead ((parentCreated_eq_ok hparent).2 hlater) halike ?_
    have hinside := isInside_of_parent? hparent
    have habove' : IsInside above path := by
      rcases isInside_of_ancestor? habove with rfl | hinside'
      · exact hinside
      · exact hinside'.trans hinside
    by_cases husable : Usable path
    · rcases @createDirsTo_fst_or above path tree habove' husable with hsame | hresolve
      · rw [hsame, hread]
      · apply read_of_createDirsTo hinside hlater halike
        rw [← hread, read_of_resolve_missing (hresolve true)]
    · rw [FileTree.read, FileTree.read, resolve_of_not_usable husable _ base]

/-- Whatever comes of creating the directory of the file, it can be gone on with. -/
theorem createDirsFailing (hbase : base.Furnishes path) (h : Preparable base path tree)
    {parent : String} (hparent : parent? path = some parent) (fault : Option ReplaceFault) :
    let outcome := tree.createDirsFailing parent fault
    let outcome' := base.createDirsFailing parent fault
    Preparable base path outcome.1 ∧ outcome.2 = outcome'.2 ∧
      (outcome.2 = .ok () → Prepared base path outcome.1) := by
  have hcreated : Preparable base path (tree.createDirsTo parent).1 ∧
      (tree.createDirsTo parent).2 = (base.createDirsTo parent).2 ∧
      ((tree.createDirsTo parent).2 = .ok () →
        Prepared base path (tree.createDirsTo parent).1) := by
    obtain ⟨made, hmade, hprepared⟩ := h.createDirsTo hbase hparent
    rw [hmade, createDirsTo_of_isDirAt (hbase.dir parent hparent)]
    exact ⟨.prepared hprepared, rfl, fun _ ↦ hprepared⟩
  rcases fault with _ | ⟨levels, cause⟩ | _ | _
  · exact hcreated
  · dsimp only [FileTree.createDirsFailing]
    refine ⟨?_, rfl, nofun⟩
    cases habove : FailingMachine.ancestor? parent levels with
    | none => exact h
    | some above => exact h.createDirsTo_above hbase hparent habove
  · exact hcreated
  · exact hcreated

theorem parentCreated (hbase : base.Furnishes path) (h : Preparable base path tree)
    (fault : Option ReplaceFault) :
    Preparable base path (tree.parentCreated path fault).1 ∧
      (tree.parentCreated path fault).2 = (base.parentCreated path fault).2 ∧
      ((tree.parentCreated path fault).2 = .ok () →
        Prepared base path (tree.parentCreated path fault).1) := by
  cases hparent : parent? path with
  | none =>
    have hsame (tree : FileTree) (fault : Option ReplaceFault) :
        tree.parentCreated path fault = (tree, .ok ()) := by
      rw [FileTree.parentCreated, hparent]
    rw [hsame, hsame]
    refine ⟨h, rfl, fun _ ↦ ?_⟩
    cases h with
    | prepared h => exact h
    | ahead hmade halike _ =>
      cases (hsame tree none).symm.trans hmade
      exact .blank halike
  | some parent =>
    obtain ⟨hafter, hresult, hok⟩ := h.createDirsFailing hbase hparent fault
    rw [FileTree.parentCreated, FileTree.parentCreated, hparent]
    dsimp only [outcomeAt]
    refine ⟨hafter, by rw [hresult], fun hdone ↦ hok ?_⟩
    cases hcreated : (tree.createDirsFailing parent fault).2 with
    | ok => rfl
    | error cause =>
      rw [hcreated] at hdone
      cases hdone

end Preparable

theorem attempted_fst {changed : Except OsError FileTree}
    (h : (tree.attempted changed).2 ≠ .ok ()) : (tree.attempted changed).1 = tree := by
  cases changed with
  | ok changed => exact absurd rfl h
  | error cause => rfl

/-- A move of a draft that fails leaves everything as it is. -/
theorem draftMoved_fst {fault : Option ReplaceFault}
    (h : (tree.draftMoved path fault).2 ≠ .ok ()) : (tree.draftMoved path fault).1 = tree := by
  have hmove : (tree.renameFailing (draftPath path) path fault).2 ≠ .ok () := by
    intro hok
    rw [draftMoved, outcomeAt, hok] at h
    exact h rfl
  change (tree.renameFailing (draftPath path) path fault).1 = tree
  unfold renameFailing at hmove ⊢
  revert hmove
  split
  · exact fun _ ↦ rfl
  · exact attempted_fst

/-- Outcomes of a replacement on two trees: both succeed and make the trees alike, or both fail with
the same fault and can be tried again. -/
inductive Matched (base : FileTree) (path : String) : Outcome → Outcome → Prop where
  | done {tree other : FileTree} (h : tree.Alike other) :
      Matched base path (tree, .ok ()) (other, .ok ())
  | failed {tree other : FileTree} (fault : FileFault) (h : Preparable base path tree)
      (h' : Preparable base path other) :
      Matched base path (tree, .error fault) (other, .error fault)

theorem matched_draftMoved (h : Prepared base path tree) (h' : Prepared base path other)
    (halike : tree.Alike other) (fault : Option ReplaceFault) :
    Matched base path (tree.draftMoved path fault) (other.draftMoved path fault) := by
  obtain ⟨hresult, hmoved⟩ := halike.draftMoved path fault
  have hkept := @draftMoved_fst tree path fault
  have hkept' := @draftMoved_fst other path fault
  generalize tree.draftMoved path fault = outcome at hresult hmoved hkept ⊢
  generalize other.draftMoved path fault = outcome' at hresult hmoved hkept' ⊢
  obtain ⟨moved, result⟩ := outcome
  obtain ⟨moved', result'⟩ := outcome'
  obtain rfl : result = result' := hresult
  cases result with
  | ok => exact .done hmoved
  | error cause =>
    obtain rfl : moved = tree := hkept nofun
    obtain rfl : moved' = other := hkept' nofun
    exact .failed cause (.prepared h) (.prepared h')

/-- Once the directory is there, it does not matter which drafts were left behind. -/
theorem Prepared.matched (h : Prepared base path tree) (h' : Prepared base path other)
    (bytes : List UInt8) (fault : Option ReplaceFault) :
    Matched base path
      ((tree.draftWritten path bytes fault).andThen fun written ↦ written.draftMoved path fault)
      ((other.draftWritten path bytes fault).andThen fun written ↦
        written.draftMoved path fault) := by
  obtain ⟨hwritten, hresult, halike⟩ := h.writeFailing bytes fault
  obtain ⟨hwritten', hresult', halike'⟩ := h'.writeFailing bytes fault
  rw [← hresult'] at hresult
  unfold draftWritten
  generalize tree.writeFailing (draftPath path) bytes fault = outcome
    at hwritten hresult halike ⊢
  generalize other.writeFailing (draftPath path) bytes fault = outcome'
    at hwritten' hresult halike' ⊢
  obtain ⟨written, result⟩ := outcome
  obtain ⟨written', result'⟩ := outcome'
  obtain rfl : result = result' := hresult
  cases result with
  | ok => exact matched_draftMoved hwritten hwritten' ((halike rfl).trans (halike' rfl).symm) fault
  | error cause => exact .failed _ (.prepared hwritten) (.prepared hwritten')

/-- A replacement comes to the same however much of it was done before in vain. -/
theorem Preparable.matched (hbase : base.Furnishes path) (h : Preparable base path tree)
    (h' : Preparable base path other) (bytes : List UInt8) (fault : Option ReplaceFault) :
    Matched base path (tree.fileReplaced path bytes fault)
      (other.fileReplaced path bytes fault) := by
  obtain ⟨hcreated, hresult, hok⟩ := h.parentCreated hbase fault
  obtain ⟨hcreated', hresult', hok'⟩ := h'.parentCreated hbase fault
  rw [← hresult'] at hresult
  unfold fileReplaced
  generalize tree.parentCreated path fault = outcome at hcreated hresult hok ⊢
  generalize other.parentCreated path fault = outcome' at hcreated' hresult hok' ⊢
  obtain ⟨created, result⟩ := outcome
  obtain ⟨created', result'⟩ := outcome'
  obtain rfl : result = result' := hresult
  cases result with
  | ok => exact (hok rfl).matched (hok' rfl) bytes fault
  | error cause => exact .failed cause hcreated hcreated'

/-! ## Sheltered files -/

/-- Where the directory of a file cannot be created at all, a replacement leaves everything as it
is. -/
theorem fileReplaced_of_closed (husable : Usable path) {cause : FileFault}
    (h : tree.parentCreated path none = (tree, .error cause)) (bytes : List UInt8)
    (fault : Option ReplaceFault) : (tree.fileReplaced path bytes fault).1 = tree := by
  cases hparent : parent? path with
  | none =>
    rw [parentCreated, hparent] at h
    cases h
  | some parent =>
    have hcreated : tree.createDirsTo parent = (tree, (tree.createDirsTo parent).2) := by
      rw [parentCreated, hparent] at h
      have hsame := congrArg Prod.fst h
      exact Prod.ext hsame rfl
    have hne : (tree.createDirsTo parent).2 ≠ .ok () := by
      intro hok
      rw [hok] at hcreated
      cases h.symm.trans ((parentCreated_eq_ok hparent).2 hcreated)
    have hdir : parent ≠ "" := by
      rintro rfl
      exact hne (congrArg Prod.snd (createDirsTo_empty tree))
    have husable' := (isInside_of_parent? hparent).usable hdir husable
    have hfailing : (tree.createDirsFailing parent fault).1 = tree ∧
        (tree.createDirsFailing parent fault).2 ≠ .ok () := by
      have hplain := congrArg Prod.fst hcreated
      rcases fault with _ | ⟨levels, cause⟩ | _ | _
      · exact ⟨hplain, hne⟩
      · dsimp only [createDirsFailing]
        refine ⟨?_, nofun⟩
        cases habove : FailingMachine.ancestor? parent levels with
        | none => rfl
        | some above => exact createDirsTo_ancestor_fst husable' habove hplain
      · exact ⟨hplain, hne⟩
      · exact ⟨hplain, hne⟩
    rw [fileReplaced, parentCreated, hparent]
    dsimp only
    generalize tree.createDirsFailing parent fault = outcome at hfailing
    obtain ⟨created, result⟩ := outcome
    obtain ⟨rfl, hfailed⟩ := hfailing
    cases result with
    | ok => exact absurd rfl hfailed
    | error cause => rfl

/-- Whether two trees cannot be told apart by reading and replacing a file. -/
inductive Interchangeable (path : String) (tree other : FileTree) : Prop where
  | alike (h : tree.Alike other)
  | preparable {base : FileTree} (hbase : base.Furnishes path) (h : Preparable base path tree)
      (h' : Preparable base path other)

namespace Interchangeable

theorem read_eq (h : Interchangeable path tree other) : tree.read path = other.read path := by
  cases h with
  | alike h => exact h.read_eq path
  | preparable hbase h h' => exact (h.read_eq hbase).trans (h'.read_eq hbase).symm

theorem fileReplaced (h : Interchangeable path tree other) (bytes : List UInt8)
    (fault : Option ReplaceFault) :
    (tree.fileReplaced path bytes fault).2 = (other.fileReplaced path bytes fault).2 ∧
      Interchangeable path (tree.fileReplaced path bytes fault).1
        (other.fileReplaced path bytes fault).1 := by
  cases h with
  | alike h =>
    obtain ⟨hresult, halike⟩ := h.fileReplaced path bytes fault
    exact ⟨hresult, .alike halike⟩
  | preparable hbase h h' =>
    have hmatched := h.matched hbase h' bytes fault
    generalize tree.fileReplaced path bytes fault = outcome at hmatched
    generalize other.fileReplaced path bytes fault = outcome' at hmatched
    cases hmatched with
    | done halike => exact ⟨rfl, .alike halike⟩
    | failed cause h h' => exact ⟨rfl, .preparable hbase h h'⟩

end Interchangeable

/-- After a replacement of a sheltered file that failed, reading and replacing the file goes on as
if there had been none. -/
theorem Sheltered.interchangeable (h : tree.Sheltered path) (husable : path = "" ∨ Usable path)
    {bytes : List UInt8} {fault : Option ReplaceFault}
    (hfailed : (tree.fileReplaced path bytes fault).2 ≠ .ok ()) :
    Interchangeable path tree (tree.fileReplaced path bytes fault).1 := by
  cases hparent : tree.parentCreated path none with
  | mk made result =>
    cases result with
    | ok =>
      have hbase : made.Furnishes path := by
        refine ⟨fun parent hdir ↦ ?_, ?_⟩
        · exact isDirAt_of_createDirsTo ((parentCreated_eq_ok hdir).1 hparent)
        · have hapart := h.apart
          rwa [hparent] at hapart
      have hclear := h.clear
      rw [hparent] at hclear
      have hahead : Preparable made path tree := .ahead hparent (.refl made) hclear.symm
      have hmatched := hahead.matched hbase hahead bytes fault
      generalize tree.fileReplaced path bytes fault = outcome at hmatched hfailed ⊢
      cases hmatched with
      | done => exact absurd rfl hfailed
      | failed cause hafter _ => exact .preparable hbase hahead hafter
    | error cause =>
      have hsame := h.whole.resolve_left (by rw [hparent]; exact nofun)
      rw [hparent] at hsame
      obtain rfl : made = tree := hsame
      have hpath : path ≠ "" := by
        rintro rfl
        cases hparent
      rw [fileReplaced_of_closed (husable.resolve_left hpath) hparent]
      exact .alike (.refl made)

theorem eq_of_placeAt_vacant {slash : Bool} {other : Route}
    (h : tree.placeAt other = .vacant route slash) : other = route := by
  unfold placeAt at h
  split at h
  · cases h
  · exact (Place.vacant.inj h).1

theorem eq_of_placeAt_found {node : Node} {other : Route}
    (h : tree.placeAt other = .found route node) : other = route := by
  unfold placeAt at h
  split at h
  · exact (Place.found.inj h).1
  · cases h

/-- A file is sheltered where it has its own place and its directory is there. -/
theorem Hosts.sheltered {file draft : Route} (h : tree.Hosts path file draft)
    (hne : file ≠ draft) : tree.Sheltered path := by
  have hparent := parentCreated_of_isDirAt h.parent
  refine ⟨.inl (congrArg Prod.snd hparent), by rw [hparent], ?_⟩
  rw [hparent]
  rintro place route hdraft hplace ⟨links, here, part, rest, hway, hname, rfl⟩
  cases h.draft_leads.symm.trans hdraft
  have hroute := eq_of_fileRoute?_placeAt hplace
  have hleads := h.leads
  have hwalk := hway.walk_eq true [] (.inl rfl)
  rw [List.append_nil, List.append_nil] at hwalk
  rw [resolve_of_usable (usable_of_resolve hleads)] at hleads
  replace hleads := hwalk.symm.trans hleads
  cases hnode : tree.node? (here ++ [part]) with
  | none =>
    rw [hname.walk_nothing hnode] at hleads
    split at hleads
    · exact hne ((eq_of_placeAt_vacant (Except.ok.inj hleads).symm).trans hroute)
    · cases hleads
  | some node =>
    cases node with
    | dir => exact h.draft_ne_dir (hroute ▸ hnode)
    | link target => exact h.free _ target hnode
    | file content =>
      rw [hname.walk_onto_file hnode] at hleads
      split at hleads
      · exact hne ((eq_of_placeAt_found (Except.ok.inj hleads).symm).trans hroute)
      · cases hleads

end FileTree

end CommitCoordinator.Storage
