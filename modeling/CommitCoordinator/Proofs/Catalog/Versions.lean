import CommitCoordinator.Proofs.Catalog.Admission

/-!
# How calls advance versions

A request to append is accepted as a whole or not at all. An accepted one advances the version of
each partition that it lists by one and leaves everything else alone. So, from the empty catalog
on, a version tells how often its partition was advanced, and no snapshots of an accepted request
are lost.
-/

namespace CommitCoordinator

/-! ## Calls one after the other -/

/-- Whether a reply tells that a request was accepted. -/
def CatalogReply.isAcceptance : CatalogReply → Bool
  | answered accepted => accepted
  | _ => false

namespace CatalogCall

/-- Whether a call brings snapshots, if only none at all, to a partition. -/
def names (tableId partition : String) : CatalogCall → Bool
  | append request _ _ =>
    request.partitions.any fun part ↦ part.tableId = tableId ∧ part.partition = partition
  | _ => false

/-- The snapshots that a call brings to a partition. -/
def brings (tableId partition : String) : CatalogCall → List Uuid
  | append request _ _ => snapshotsFor request.partitions tableId partition
  | _ => []

/-- Whether a call leaves the present snapshots in their chains. -/
def keepsChains : CatalogCall → Bool
  | append _ keep _ => keep
  | _ => true

end CatalogCall

namespace Catalog

/-- The contents of a catalog in memory after a call. -/
def afterCall (catalog : Catalog) (call : CatalogCall) : Catalog :=
  ((call.inMemory : StateM Catalog CatalogResult).run catalog).2

/-- Whether a call is answered with an acceptance. -/
def accepts (catalog : Catalog) (call : CatalogCall) : Bool :=
  match ((call.inMemory : StateM Catalog CatalogResult).run catalog).1 with
  | .ok reply => reply.isAcceptance
  | .error _ => false

/-- The contents of a catalog after the calls of any clients, in the order in which it takes
them. -/
def afterCalls (catalog : Catalog) (calls : List CatalogCall) : Catalog :=
  calls.foldl afterCall catalog

/-- The calls that are answered with an acceptance. -/
def acceptedOf (catalog : Catalog) : List CatalogCall → List CatalogCall
  | [] => []
  | call :: calls =>
    (if catalog.accepts call then [call] else []) ++ (catalog.afterCall call).acceptedOf calls

@[simp] theorem afterCalls_nil (catalog : Catalog) : catalog.afterCalls [] = catalog := rfl

@[simp] theorem afterCalls_cons (catalog : Catalog) (call : CatalogCall)
    (calls : List CatalogCall) :
    catalog.afterCalls (call :: calls) = (catalog.afterCall call).afterCalls calls := rfl

theorem afterCalls_append (catalog : Catalog) (front back : List CatalogCall) :
    catalog.afterCalls (front ++ back) = (catalog.afterCalls front).afterCalls back :=
  List.foldl_append

/-! ## One request -/

/-- Whether a request can be accepted: it names a known table, and each of its partitions once and
with snapshots that the partition does not have. -/
structure Suits (catalog : Catalog) (request : AppendRequest) : Prop where
  known : ∃ table ∈ catalog.tables.values, table.id = request.table.id
  own : ∀ part ∈ request.partitions, part.tableId = request.table.id
  once : (request.partitions.map PartitionAppend.partition).Nodup
  fresh : ∀ part ∈ request.partitions, ∀ id ∈ part.snapshots,
    id ∉ catalog.chain part.tableId part.partition

theorem admits_iff_suits {catalog : Catalog} {request : AppendRequest} :
    catalog.admits request = true ↔ catalog.Suits request := by
  have hpart (part : PartitionAppend) :
      catalog.admitsPartition request.table.id part = true ↔ part.tableId = request.table.id ∧
        ∀ id ∈ part.snapshots, id ∉ catalog.chain request.table.id part.partition := by
    simp [admitsPartition]
  rw [admits, Bool.and_eq_true, Bool.and_eq_true, decide_eq_true_iff, List.all_eq_true,
    knowsTableId_iff]
  constructor
  · rintro ⟨⟨hknown, hparts⟩, honce⟩
    have hown (part : PartitionAppend) (hmem : part ∈ request.partitions) :
        part.tableId = request.table.id :=
      ((hpart part).1 (hparts part hmem)).1
    refine ⟨hknown, hown, honce, fun part hmem ↦ ?_⟩
    rw [hown part hmem]
    exact ((hpart part).1 (hparts part hmem)).2
  · intro h
    refine ⟨⟨h.known, fun part hmem ↦ (hpart part).2 ⟨h.own part hmem, ?_⟩⟩, h.once⟩
    rw [← h.own part hmem]
    exact h.fresh part hmem

/-- The version that comes after the current one, or first if there is none. -/
def following (keep : Bool) (mode : CommitMode) (snapshots : List Uuid) :
    Option PartitionVersion → PartitionVersion
  | some current => current.next keep mode snapshots
  | none => ⟨0, mode, snapshots⟩

theorem version?_eq (catalog : Catalog) (tableId partition : String) :
    catalog.version? tableId partition = (catalog.versions tableId).find? partition := by
  unfold version? versions
  cases catalog.partitions.find? tableId <;> rfl

theorem find?_advance_self (keep : Bool) (mode : CommitMode) (versions : SortedMap PartitionVersion)
    (part : PartitionAppend) :
    (advance keep mode versions part).find? part.partition =
      some (following keep mode part.snapshots (versions.find? part.partition)) := by
  rw [advance, SortedMap.find?_insert_self]
  cases versions.find? part.partition <;> rfl

theorem find?_advance_of_ne (keep : Bool) (mode : CommitMode)
    (versions : SortedMap PartitionVersion) {part : PartitionAppend} {partition : String}
    (h : partition ≠ part.partition) :
    (advance keep mode versions part).find? partition = versions.find? partition := by
  rw [advance, SortedMap.find?_insert_of_ne _ _ h]

theorem find?_foldl_advance_of_notMem (keep : Bool) (mode : CommitMode)
    {parts : List PartitionAppend} {partition : String}
    (h : partition ∉ parts.map PartitionAppend.partition) (versions : SortedMap PartitionVersion) :
    (parts.foldl (advance keep mode) versions).find? partition = versions.find? partition := by
  induction parts generalizing versions with
  | nil => rfl
  | cons part rest ih =>
    rw [List.map_cons, List.mem_cons, not_or] at h
    rw [List.foldl_cons, ih h.2, find?_advance_of_ne keep mode versions h.1]

/-- A partition that is listed once advances once. -/
theorem find?_foldl_advance_of_mem (keep : Bool) (mode : CommitMode)
    {parts : List PartitionAppend} (honce : (parts.map PartitionAppend.partition).Nodup)
    {part : PartitionAppend} (hpart : part ∈ parts) (versions : SortedMap PartitionVersion) :
    (parts.foldl (advance keep mode) versions).find? part.partition =
      some (following keep mode part.snapshots (versions.find? part.partition)) := by
  induction parts generalizing versions with
  | nil => cases hpart
  | cons first rest ih =>
    rw [List.map_cons, List.nodup_cons] at honce
    rw [List.foldl_cons]
    rcases List.mem_cons.1 hpart with rfl | hrest
    · rw [find?_foldl_advance_of_notMem keep mode honce.1, find?_advance_self]
    · have hne : part.partition ≠ first.partition := by
        intro heq
        apply honce.1
        exact heq ▸ List.mem_map_of_mem hrest
      rw [ih honce.2 hrest, find?_advance_of_ne keep mode versions hne]

section Request

variable {catalog next : Catalog} {request : AppendRequest} {keep : Bool} {mode : CommitMode}

theorem suits_of_append? (h : catalog.append? request keep mode = some next) :
    catalog.Suits request := by
  apply admits_iff_suits.1
  cases hadmits : catalog.admits request with
  | true => rfl
  | false => rw [append?_eq_none.2 hadmits] at h; cases h

theorem version?_append?_of_mem (h : catalog.append? request keep mode = some next)
    {part : PartitionAppend} (hpart : part ∈ request.partitions) :
    next.version? part.tableId part.partition =
      some (following keep mode part.snapshots (catalog.version? part.tableId part.partition)) := by
  have hsuits := suits_of_append? h
  obtain ⟨hown, rfl⟩ := append?_eq_some h
  rw [version?_eq, version?_eq, hown part hpart]
  unfold versions
  rw [SortedMap.find?_insert_self, Option.getD_some]
  exact find?_foldl_advance_of_mem keep mode hsuits.once hpart _

theorem version?_append?_of_not_listed (h : catalog.append? request keep mode = some next)
    {tableId partition : String}
    (hnone : ∀ part ∈ request.partitions, ¬(part.tableId = tableId ∧ part.partition = partition)) :
    next.version? tableId partition = catalog.version? tableId partition := by
  obtain ⟨hown, rfl⟩ := append?_eq_some h
  rw [version?_eq, version?_eq]
  by_cases htable : tableId = request.table.id
  · have hpartition : partition ∉ request.partitions.map PartitionAppend.partition := by
      intro hmem
      obtain ⟨part, hpart, rfl⟩ := List.mem_map.1 hmem
      exact hnone part hpart ⟨(hown part hpart).trans htable.symm, rfl⟩
    unfold versions
    rw [htable, SortedMap.find?_insert_self, Option.getD_some]
    exact find?_foldl_advance_of_notMem keep mode hpartition _
  · unfold versions
    rw [SortedMap.find?_insert_of_ne _ _ htable]

end Request

/-- What an accepted request does: each partition that it lists advances by one version, and
everything else stays as it was. -/
structure Advances (before : Catalog) (request : AppendRequest) (keep : Bool) (mode : CommitMode)
    (after : Catalog) : Prop where
  tables : after.tables = before.tables
  manifests : after.manifests = before.manifests
  listed : ∀ part ∈ request.partitions, ∃ version,
    after.version? part.tableId part.partition = some version ∧ version.mode = mode ∧
      version.snapshots =
        (if keep then before.chain part.tableId part.partition else []) ++ part.snapshots ∧
      (before.version? part.tableId part.partition = none → version.version = 0) ∧
      ∀ old, before.version? part.tableId part.partition = some old →
        old.version < Int64.maxValue → version.version.toInt = old.version.toInt + 1
  others : ∀ tableId partition,
    (∀ part ∈ request.partitions, ¬(part.tableId = tableId ∧ part.partition = partition)) →
      after.version? tableId partition = before.version? tableId partition

theorem toInt_add_one {version : Int64} (h : version < Int64.maxValue) :
    (version + 1).toInt = version.toInt + 1 := by
  have hbelow : version.toInt < 2 ^ 63 - 1 := by
    exact Int64.toInt_maxValue ▸ Int64.lt_iff_toInt_lt.1 h
  have habove : -2 ^ 63 ≤ version.toInt := Int64.le_toInt version
  have hone : (1 : Int64).toInt = 1 := by decide
  rw [Int64.toInt_add, hone]
  apply Int.bmod_eq_of_le <;> omega

@[simp] theorem mode_following (keep : Bool) (mode : CommitMode) (snapshots : List Uuid)
    (current? : Option PartitionVersion) :
    (following keep mode snapshots current?).mode = mode := by
  cases current? <;> rfl

@[simp] theorem snapshots_following (keep : Bool) (mode : CommitMode) (snapshots : List Uuid)
    (current? : Option PartitionVersion) :
    (following keep mode snapshots current?).snapshots =
      (if keep then (current?.map PartitionVersion.snapshots).getD [] else []) ++ snapshots := by
  cases current? with
  | none => cases keep <;> rfl
  | some current => rfl

theorem advances_of_append? {catalog next : Catalog} {request : AppendRequest} {keep : Bool}
    {mode : CommitMode} (h : catalog.append? request keep mode = some next) :
    catalog.Advances request keep mode next where
  tables := by
    obtain ⟨-, rfl⟩ := append?_eq_some h
    rfl
  manifests := manifests_append? h
  listed part hpart := by
    refine ⟨_, version?_append?_of_mem h hpart, mode_following .., snapshots_following .., ?_, ?_⟩
    · intro hnone
      rw [hnone]
      rfl
    · intro old hold hbelow
      rw [hold]
      exact toInt_add_one hbelow
  others _ _ hnone := version?_append?_of_not_listed h hnone

/-! ## One call -/

/-- What a call does to the contents of a catalog, and whether it is accepted. -/
inductive Effect (catalog : Catalog) : CatalogCall → Catalog → Bool → Prop where
  | kept (call : CatalogCall) : Effect catalog call catalog false
  | registered {call : CatalogCall} {table : Table} {after : Catalog}
      (h : catalog.register? table = some after) : Effect catalog call after false
  | appended {request : AppendRequest} {keep : Bool} {mode : CommitMode} {after : Catalog}
      (h : catalog.append? request keep mode = some after) :
      Effect catalog (.append request keep mode) after true
  | described (manifests : List Manifest) :
      Effect catalog (.insert manifests) (catalog.insertManifests manifests) false

theorem afterCall_eq (catalog : Catalog) (call : CatalogCall) :
    catalog.afterCall call =
      match call.apply catalog with
      | .error _ => catalog
      | .ok (_, changed) => changed.getD catalog := by
  unfold afterCall
  change ((call.inMemory : StateM Catalog CatalogResult) catalog).2 = _
  rw [CatalogCall.inMemory_eq]
  cases call.apply catalog <;> rfl

theorem accepts_eq (catalog : Catalog) (call : CatalogCall) :
    catalog.accepts call =
      match call.apply catalog with
      | .error _ => false
      | .ok (reply, _) => reply.isAcceptance := by
  unfold accepts
  change (match ((call.inMemory : StateM Catalog CatalogResult) catalog).1 with
    | .ok reply => reply.isAcceptance
    | .error _ => false) = _
  rw [CatalogCall.inMemory_eq]
  cases call.apply catalog <;> rfl

theorem effect_of_register {catalog : Catalog} {table : Table} {call : CatalogCall}
    {reply : CatalogReply} (hreply : reply.isAcceptance = false)
    (h : call.apply catalog = do return (reply, some (← catalog.register table))) :
    catalog.Effect call (catalog.afterCall call) (catalog.accepts call) := by
  rw [afterCall_eq, accepts_eq, h, register]
  cases hregister : catalog.register? table with
  | none => exact .kept call
  | some after =>
    change catalog.Effect call after reply.isAcceptance
    rw [hreply]
    exact .registered hregister

theorem effect_afterCall (catalog : Catalog) (call : CatalogCall) :
    catalog.Effect call (catalog.afterCall call) (catalog.accepts call) := by
  cases call with
  | register table => exact effect_of_register rfl rfl
  | ensure table =>
    cases htable : catalog.table? table.name with
    | some existing =>
      rw [afterCall_eq, accepts_eq, CatalogCall.apply, htable]
      exact .kept _
    | none =>
      have happly : (CatalogCall.ensure table).apply catalog = do
          return (.found table, some (← catalog.register table)) := by
        rw [CatalogCall.apply, htable]
      exact effect_of_register rfl happly
  | lookup name =>
    rw [afterCall_eq, accepts_eq, CatalogCall.apply]
    cases catalog.lookup name <;> exact .kept _
  | append request keep mode =>
    rw [afterCall_eq, accepts_eq, CatalogCall.apply]
    cases happend : catalog.append? request keep mode with
    | none => exact .kept _
    | some after => exact .appended happend
  | insert manifests =>
    rw [afterCall_eq, accepts_eq, CatalogCall.apply]
    exact .described manifests

theorem version?_register? {catalog after : Catalog} {table : Table}
    (h : catalog.register? table = some after) (tableId partition : String) :
    after.version? tableId partition = catalog.version? tableId partition := by
  unfold register? at h
  split at h
  · cases h
  · rw [← Option.some.inj h]
    rfl

/-! ## One partition -/

section Partition

variable {catalog : Catalog} {call : CatalogCall} {calls : List CatalogCall}
  {tableId partition : String}

/-- A partition that is listed once is listed with all its snapshots. -/
theorem snapshotsFor_of_mem {parts : List PartitionAppend}
    (honce : (parts.map PartitionAppend.partition).Nodup) {part : PartitionAppend}
    (hpart : part ∈ parts) :
    snapshotsFor parts part.tableId part.partition = part.snapshots := by
  have hfilter : parts.filter (fun other ↦
      other.tableId = part.tableId ∧ other.partition = part.partition) = [part] := by
    induction parts with
    | nil => cases hpart
    | cons first rest ih =>
      rw [List.map_cons, List.nodup_cons] at honce
      rcases List.mem_cons.1 hpart with rfl | hrest
      · have hnone : rest.filter (fun other ↦
            other.tableId = part.tableId ∧ other.partition = part.partition) = [] := by
          apply List.filter_eq_nil_iff.2
          intro other hother hsame
          apply honce.1
          rw [← (of_decide_eq_true hsame).2]
          exact List.mem_map_of_mem hother
        rw [List.filter_cons_of_pos (by simp), hnone]
      · have hne : first.partition ≠ part.partition := by
          intro heq
          apply honce.1
          exact heq ▸ List.mem_map_of_mem hrest
        rw [List.filter_cons_of_neg (by simp [hne]), ih honce.2 hrest]
  rw [snapshotsFor, hfilter, List.flatMap_singleton]

theorem brings_of_not_names (h : call.names tableId partition = false) :
    call.brings tableId partition = [] := by
  cases call with
  | append request keep mode =>
    apply List.eq_nil_iff_forall_not_mem.2
    intro id hid
    obtain ⟨part, hpart, htable, hpartition, -⟩ := mem_snapshotsFor.1 hid
    have hnone := List.any_eq_false.1 h part hpart
    simp [htable, hpartition] at hnone
  | _ => rfl

/-- An accepted call advances the partitions that it names. -/
theorem version?_afterCall_of_names (haccepts : catalog.accepts call = true)
    (hnames : call.names tableId partition = true) :
    ∃ mode, (catalog.afterCall call).version? tableId partition =
      some (following call.keepsChains mode (call.brings tableId partition)
        (catalog.version? tableId partition)) := by
  have heffect := effect_afterCall catalog call
  rw [haccepts] at heffect
  generalize catalog.afterCall call = after at heffect ⊢
  cases heffect with
  | @appended request keep mode _ happend =>
    obtain ⟨part, hpart, hsame⟩ := List.any_eq_true.1 hnames
    obtain ⟨rfl, rfl⟩ := of_decide_eq_true hsame
    have hbrings := snapshotsFor_of_mem (suits_of_append? happend).once hpart
    refine ⟨mode, ?_⟩
    rw [version?_append?_of_mem happend hpart, CatalogCall.brings, hbrings]
    rfl

/-- All other calls leave the version of a partition alone. -/
theorem version?_afterCall_of_not
    (h : (catalog.accepts call && call.names tableId partition) = false) :
    (catalog.afterCall call).version? tableId partition = catalog.version? tableId partition := by
  have heffect := effect_afterCall catalog call
  generalize catalog.afterCall call = after at heffect ⊢
  cases hcall : catalog.accepts call with
  | false =>
    rw [hcall] at heffect
    cases heffect with
    | kept => rfl
    | registered hregister => exact version?_register? hregister tableId partition
    | described => rfl
  | true =>
    rw [hcall] at heffect h
    cases heffect with
    | appended happend =>
      apply version?_append?_of_not_listed happend
      intro part hpart hsame
      have hnone := List.any_eq_false.1 h part hpart
      exact hnone (decide_eq_true hsame)

/-- Whether the version of a partition is below the largest number. -/
def CanAdvance (catalog : Catalog) (tableId partition : String) : Prop :=
  ∀ version, catalog.version? tableId partition = some version →
    version.version < Int64.maxValue

instance : Decidable (catalog.CanAdvance tableId partition) :=
  inferInstanceAs (Decidable (∀ version ∈ catalog.version? tableId partition,
    version.version < Int64.maxValue))

/-- How many appends a version counts, the first of which has the number zero. -/
def counted : Option PartitionVersion → Int
  | some current => current.version.toInt + 1
  | none => 0

theorem counted_following {current? : Option PartitionVersion}
    (hbelow : ∀ current, current? = some current → current.version < Int64.maxValue) (keep : Bool)
    (mode : CommitMode) (snapshots : List Uuid) :
    counted (some (following keep mode snapshots current?)) = counted current? + 1 := by
  cases current? with
  | none => rfl
  | some current => exact congrArg (· + 1) (toInt_add_one (hbelow current rfl))

theorem countP_acceptedOf_cons :
    (catalog.acceptedOf (call :: calls)).countP (CatalogCall.names tableId partition) =
      (if catalog.accepts call && call.names tableId partition then 1 else 0) +
        ((catalog.afterCall call).acceptedOf calls).countP
          (CatalogCall.names tableId partition) := by
  rw [acceptedOf, List.countP_append]
  cases catalog.accepts call <;> simp [List.countP_cons]

theorem counted_afterCalls
    (hbelow : ∀ step ∈ CatalogCall.course CatalogCall.inMemory catalog calls,
      step.before.CanAdvance tableId partition) :
    counted ((catalog.afterCalls calls).version? tableId partition) =
      counted (catalog.version? tableId partition) +
        (catalog.acceptedOf calls).countP (CatalogCall.names tableId partition) := by
  induction calls generalizing catalog with
  | nil => exact (Int.add_zero _).symm
  | cons call calls ih =>
    have hfirst : catalog.CanAdvance tableId partition := hbelow _ List.mem_cons_self
    have hrest := @ih (catalog.afterCall call) fun step hstep ↦
      hbelow step (List.mem_cons_of_mem _ hstep)
    rw [afterCalls_cons, hrest, countP_acceptedOf_cons]
    cases hnamed : catalog.accepts call && call.names tableId partition with
    | false =>
      rw [version?_afterCall_of_not hnamed]
      simp
    | true =>
      obtain ⟨haccepts, hnames⟩ := Bool.and_eq_true_iff.1 hnamed
      obtain ⟨mode, hversion⟩ := version?_afterCall_of_names haccepts hnames
      rw [hversion, counted_following hfirst, if_pos rfl, Int.natCast_add]
      exact Int.add_assoc _ _ _

theorem version?_afterCalls_eq_none_iff :
    (catalog.afterCalls calls).version? tableId partition = none ↔
      catalog.version? tableId partition = none ∧
        (catalog.acceptedOf calls).countP (CatalogCall.names tableId partition) = 0 := by
  induction calls generalizing catalog with
  | nil => simp [acceptedOf]
  | cons call calls ih =>
    rw [afterCalls_cons, ih, countP_acceptedOf_cons]
    cases hnamed : catalog.accepts call && call.names tableId partition with
    | false =>
      rw [version?_afterCall_of_not hnamed]
      simp
    | true =>
      obtain ⟨haccepts, hnames⟩ := Bool.and_eq_true_iff.1 hnamed
      obtain ⟨mode, hversion⟩ := version?_afterCall_of_names haccepts hnames
      rw [hversion]
      simp

theorem chain_afterCall_of_names (haccepts : catalog.accepts call = true)
    (hnames : call.names tableId partition = true) :
    (catalog.afterCall call).chain tableId partition =
      (if call.keepsChains then catalog.chain tableId partition else []) ++
        call.brings tableId partition := by
  obtain ⟨mode, hversion⟩ := version?_afterCall_of_names haccepts hnames
  rw [chain, hversion]
  exact snapshots_following ..

theorem chain_afterCall_of_not
    (h : (catalog.accepts call && call.names tableId partition) = false) :
    (catalog.afterCall call).chain tableId partition = catalog.chain tableId partition := by
  rw [chain, version?_afterCall_of_not h, chain]

/-- Accepted calls that keep the present snapshots add their own, in the order of the calls. -/
theorem chain_afterCalls
    (hkeep : ∀ call ∈ catalog.acceptedOf calls, call.names tableId partition = true →
      call.keepsChains = true) :
    (catalog.afterCalls calls).chain tableId partition =
      catalog.chain tableId partition ++
        (catalog.acceptedOf calls).flatMap (CatalogCall.brings tableId partition) := by
  induction calls generalizing catalog with
  | nil => exact (List.append_nil _).symm
  | cons call calls ih =>
    have hrest := @ih (catalog.afterCall call) fun other hother ↦
      hkeep other (List.mem_append_right _ hother)
    rw [afterCalls_cons, hrest, acceptedOf, List.flatMap_append, ← List.append_assoc]
    congr 1
    cases haccepts : catalog.accepts call with
    | false =>
      rw [chain_afterCall_of_not (by rw [haccepts, Bool.false_and])]
      exact (List.append_nil _).symm
    | true =>
      rw [if_pos rfl, List.flatMap_singleton]
      cases hnames : call.names tableId partition with
      | false =>
        rw [chain_afterCall_of_not (by rw [hnames, Bool.and_false]), brings_of_not_names hnames,
          List.append_nil]
      | true =>
        have hmem : call ∈ catalog.acceptedOf (call :: calls) := by
          rw [acceptedOf, haccepts, if_pos rfl]
          exact List.mem_append_left _ List.mem_cons_self
        rw [chain_afterCall_of_names haccepts hnames, hkeep call hmem hnames, if_pos rfl]

end Partition

theorem run_append (catalog : Catalog) (request : AppendRequest) (keep : Bool)
    (mode : CommitMode) :
    (MemoryCatalog.append request keep mode : StateM Catalog _).run catalog =
      (.ok (catalog.append? request keep mode).isSome,
        (catalog.append? request keep mode).getD catalog) := by
  change (MemoryCatalog.append request keep mode : StateM Catalog _) catalog = _
  rw [CatalogCall.memory_append]
  cases catalog.append? request keep mode <;> rfl

end Catalog

/-- A request is accepted exactly if it suits the catalog; then it advances the partitions that it
lists and nothing else, and otherwise the catalog stays as it is. So, after any calls on the empty
catalog, the version of a partition counts the accepted calls that named it, and its chain has what
they brought. -/
theorem appends_are_all_or_nothing :
    (∀ (catalog : Catalog) (request : AppendRequest) (keep : Bool) (mode : CommitMode),
      ∃ accepted after,
        (MemoryCatalog.append request keep mode : StateM Catalog _).run catalog =
          (.ok accepted, after) ∧
        (accepted = true ↔ catalog.Suits request) ∧
        (accepted = true → catalog.Advances request keep mode after) ∧
        (accepted = false → after = catalog)) ∧
    ∀ (calls : List CatalogCall) (tableId partition : String),
      let accepted := Catalog.empty.acceptedOf calls
      let namings := accepted.countP (CatalogCall.names tableId partition)
      let after := Catalog.empty.afterCalls calls
      (after.version? tableId partition = none ↔ namings = 0) ∧
      ((∀ step ∈ CatalogCall.course CatalogCall.inMemory Catalog.empty calls,
          step.before.CanAdvance tableId partition) →
        ∀ version, after.version? tableId partition = some version →
          version.version.toInt = namings - 1) ∧
      ((∀ call ∈ accepted, call.names tableId partition = true → call.keepsChains = true) →
        after.chain tableId partition =
          accepted.flatMap (CatalogCall.brings tableId partition)) := by
  constructor
  · intro catalog request keep mode
    refine ⟨_, _, Catalog.run_append catalog request keep mode, ?_⟩
    cases happend : catalog.append? request keep mode with
    | none =>
      have hrefused : ¬catalog.Suits request := by
        rw [← Catalog.admits_iff_suits, Catalog.append?_eq_none.1 happend]
        simp
      exact ⟨⟨nofun, fun hsuits ↦ absurd hsuits hrefused⟩, nofun, fun _ ↦ rfl⟩
    | some after =>
      have hsuits := Catalog.suits_of_append? happend
      exact ⟨⟨fun _ ↦ hsuits, fun _ ↦ rfl⟩, fun _ ↦ Catalog.advances_of_append? happend, nofun⟩
  · intro calls tableId partition accepted namings after
    refine ⟨?_, fun hbelow version hversion ↦ ?_, fun hkeep ↦ ?_⟩
    · apply Catalog.version?_afterCalls_eq_none_iff.trans
      exact and_iff_right rfl
    · have hcounted := Catalog.counted_afterCalls hbelow
      have hstart : Catalog.empty.version? tableId partition = none := rfl
      rw [hversion, hstart, Catalog.counted, Catalog.counted] at hcounted
      change _ = ((Catalog.empty.acceptedOf calls).countP _ : Int) - 1
      omega
    · exact Catalog.chain_afterCalls hkeep

/-- A table for events. -/
def eventsTable : Table :=
  ⟨"t", "events", "/events", ""⟩

/-- A request that brings a numbered snapshot to a partition of the table for events. -/
def numberedRequest (id : Nat) : AppendRequest :=
  ⟨eventsTable, [⟨"t", "d", .append, [.ofNumber id]⟩]⟩

/-- Two clients append to a partition; the first of them repeats its request later. -/
def contendedCalls : List CatalogCall :=
  [.register eventsTable, .append (numberedRequest 0) true .append,
    .append (numberedRequest 1) true .append, .append (numberedRequest 0) true .append]

theorem appends_are_all_or_nothing_contended :
    (Catalog.empty.afterCalls contendedCalls).chain "t" "d" = [.ofNumber 0, .ofNumber 1] ∧
      ∀ version, (Catalog.empty.afterCalls contendedCalls).version? "t" "d" = some version →
        version.version.toInt = 1 := by
  obtain ⟨-, hversion, hchain⟩ := appends_are_all_or_nothing.2 contendedCalls "t" "d"
  constructor
  · rw [hchain (by decide)]
    decide
  · exact hversion (by decide)

end CommitCoordinator
