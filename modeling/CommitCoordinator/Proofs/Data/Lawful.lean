import CommitCoordinator.Data.Record
import CommitCoordinator.Proofs.Collection.Entries
import CommitCoordinator.Proofs.Collection.Lookup
import CommitCoordinator.Proofs.Json.Document

/-!
# Codecs that read back what they write

A lawful codec writes values that JSON has a form for and reads each of them back. Codecs that are
made of lawful ones by lists, maps and records are lawful themselves, one level deeper.
-/

namespace CommitCoordinator.Data

open Json

/-- A codec whose values are read back, and written within a number of levels. -/
structure Codec.Lawful {α : Type} (codec : Codec α) (levels : Nat) : Prop where
  plain (value : α) : Plain levels (codec.encode value)
  decode_encode (value : α) : codec.decode (codec.encode value) = .ok value

namespace Codec

variable {α β : Type} {levels : Nat}

theorem Lawful.mono {codec : Codec α} {levels' : Nat} (h : codec.Lawful levels)
    (hle : levels ≤ levels') : codec.Lawful levels' :=
  ⟨fun value ↦ (h.plain value).mono hle, h.decode_encode⟩

/-! ## Scalars -/

theorem text_lawful : Codec.text.Lawful levels :=
  ⟨.string, fun _ ↦ rfl⟩

theorem decodeInt_of_mem {expected : String} {lower upper value : Int} (ofInt : Int → α)
    (h : lower ≤ value ∧ value < upper) :
    decodeInt expected lower upper ofInt (.int value) = .ok (ofInt value) :=
  if_pos h

theorem int64_lawful : Codec.int64.Lawful levels where
  plain value := by
    have hupper : value.toInt < UInt64.size := Int.lt_trans value.toInt_lt (by decide)
    exact .int ⟨value.minValue_le_toInt, hupper⟩
  decode_encode value := by
    have hrange : Int64.minValue.toInt ≤ value.toInt ∧
        value.toInt < Int64.maxValue.toInt + 1 :=
      ⟨value.minValue_le_toInt, Int.lt_add_one_of_le value.toInt_le⟩
    simp only [Codec.int64, decodeInt_of_mem _ hrange, Int64.ofInt_toInt]

theorem isExact_natCast {n : Nat} (h : n < UInt64.size) : IsExact n :=
  ⟨Int.le_trans (by decide) (Int.natCast_nonneg n), Int.ofNat_lt.2 h⟩

theorem uint32_lawful : Codec.uint32.Lawful levels where
  plain value := .int (isExact_natCast (Nat.lt_trans value.toNat_lt (by decide)))
  decode_encode value := by
    have hrange : (0 : Int) ≤ value.toNat ∧ (value.toNat : Int) < UInt32.size :=
      ⟨Int.natCast_nonneg _, Int.ofNat_lt.2 value.toNat_lt⟩
    simp only [Codec.uint32, decodeInt_of_mem _ hrange, Int.toNat_natCast, UInt32.ofNat_toNat]

theorem uint64_lawful : Codec.uint64.Lawful levels where
  plain value := .int (isExact_natCast value.toNat_lt)
  decode_encode value := by
    have hrange : (0 : Int) ≤ value.toNat ∧ (value.toNat : Int) < UInt64.size :=
      ⟨Int.natCast_nonneg _, Int.ofNat_lt.2 value.toNat_lt⟩
    simp only [Codec.uint64, decodeInt_of_mem _ hrange, Int.toNat_natCast, UInt64.ofNat_toNat]

theorem variant_lawful (variants : List (String × α)) (name : α → String)
    (h : ∀ value, variantOf variants (name value) = .ok value) :
    (Codec.variant variants name).Lawful levels :=
  ⟨fun value ↦ .string (name value), h⟩

/-! ## Lists and maps -/

theorem mapM_map_eq_ok {γ : Type} {f : α → γ} {g : γ → Except Complaint α}
    (h : ∀ value, g (f value) = .ok value) (values : List α) :
    (values.map f).mapM g = .ok values := by
  induction values with
  | nil => rfl
  | cons value rest ih =>
    rw [List.map_cons, List.mapM_cons, h, ih]
    rfl

theorem list_lawful {codec : Codec α} (h : codec.Lawful levels) :
    codec.list.Lawful (levels + 1) where
  plain values := by
    refine .list fun item hitem ↦ ?_
    obtain ⟨value, -, rfl⟩ := List.mem_map.1 hitem
    exact h.plain value
  decode_encode values := mapM_map_eq_ok h.decode_encode values

theorem sortedSet_lawful : Codec.sortedSet.Lawful (levels + 1) where
  plain set := by
    refine .list fun item hitem ↦ ?_
    obtain ⟨name, -, rfl⟩ := List.mem_map.1 hitem
    exact .string name
  decode_encode set := by
    have hname (name : String) : Codec.text.decode (.string name) = .ok name := rfl
    have hnames : (set.elements.map Value.string).mapM Codec.text.decode = .ok set.elements :=
      mapM_map_eq_ok hname set.elements
    calc
      Codec.sortedSet.decode (Codec.sortedSet.encode set) =
          SortedSet.ofList <$> .ok set.elements := congrArg (SortedSet.ofList <$> ·) hnames
      _ = .ok set := congrArg Except.ok set.ofList_elements

theorem decodeWithin_eq_ok {decode : Value → Except Complaint α} {value : Value} {decoded : α}
    (h : decode value = .ok decoded) (key : Value) :
    decodeWithin decode key value = .ok decoded := by
  rw [decodeWithin, h]
  rfl

/-- The entries of a map are read back from the members that were written for them. -/
theorem decodeEntries_ofMembers {κ : Type} {codec : Codec β} (h : codec.Lawful levels)
    (keyText : κ → String) {decodeKey : Value → Except Complaint κ}
    (hkey : ∀ key, decodeKey (.string (keyText key)) = .ok key) (entries : List (κ × β)) :
    decodeEntries decodeKey codec.decode
        (.ofMembers (entries.map fun entry ↦ (keyText entry.1, codec.encode entry.2))) =
      .ok entries := by
  rw [Value.ofMembers, List.map_map]
  refine mapM_map_eq_ok (fun entry ↦ ?_) entries
  have hvalue := decodeWithin_eq_ok (h.decode_encode entry.2) (.string (keyText entry.1))
  simp only [Function.comp_apply, hkey, hvalue]
  rfl

theorem sequencedMap_lawful {κ : Type} [DecidableEq κ] {codec : Codec β}
    (h : codec.Lawful levels) {keyText : κ → String} {keyOfText : String → Except Complaint κ}
    (hkey : ∀ key, keyOfText (keyText key) = .ok key) :
    (Codec.sequencedMap keyText keyOfText codec).Lawful (levels + 1) where
  plain map := by
    refine .map fun member hmember ↦ ?_
    obtain ⟨entry, -, rfl⟩ := List.mem_map.1 hmember
    exact h.plain entry.2
  decode_encode map := by
    have hentries : decodeEntries (fun key ↦ do keyOfText (← decodeText "a string" key))
        codec.decode ((Codec.sequencedMap keyText keyOfText codec).encode map) =
          .ok map.entries :=
      decodeEntries_ofMembers h keyText hkey map.entries
    calc
      (Codec.sequencedMap keyText keyOfText codec).decode
          ((Codec.sequencedMap keyText keyOfText codec).encode map) =
          SequencedMap.ofList <$> .ok map.entries := congrArg (SequencedMap.ofList <$> ·) hentries
      _ = .ok map := congrArg Except.ok map.ofList_entries

theorem sortedMap_lawful {codec : Codec β} (h : codec.Lawful levels) :
    codec.sortedMap.Lawful (levels + 1) where
  plain map := by
    refine .map fun member hmember ↦ ?_
    obtain ⟨entry, -, rfl⟩ := List.mem_map.1 hmember
    exact h.plain entry.2
  decode_encode map := by
    have hentries : decodeEntries (decodeText "a string") codec.decode
        (codec.sortedMap.encode map) = .ok map.entries :=
      decodeEntries_ofMembers h id (fun _ ↦ rfl) map.entries
    calc
      codec.sortedMap.decode (codec.sortedMap.encode map) =
          SortedMap.ofList <$> .ok map.entries := congrArg (SortedMap.ofList <$> ·) hentries
      _ = .ok map := congrArg Except.ok map.ofList_entries

end Codec

/-! ## Records -/

namespace Fields

variable {αs : List Type}

/-- All fields have lawful codecs. -/
def Lawful (levels : Nat) : {αs : List Type} → Fields αs → Prop
  | _, .nil => True
  | _, .cons field rest => field.codec.Lawful levels ∧ rest.Lawful levels

/-- Slots that hold the values of a tuple. -/
def fill : {αs : List Type} → Tuple αs → Slots αs
  | [], () => ()
  | _ :: _, (value, values) => (some value, fill values)

/-- Members that are taken in one after the other, each of them into the slot of its field. -/
inductive Accepts (fields : Fields αs) : List (String × Value) → Slots αs → Slots αs → Prop where
  | nil (slots : Slots αs) : Accepts fields [] slots slots
  | cons {name : String} {value : Value} {members : List (String × Value)}
      {slots next last : Slots αs}
      (first : fields.accept name (.string name, value) slots = .ok (some next))
      (rest : Accepts fields members next last) :
      Accepts fields ((name, value) :: members) slots last

/-- Members of other names pass a field by. -/
theorem Accepts.after {α : Type} {field : Field α} {fields : Fields αs}
    {members : List (String × Value)} {slots last : Slots αs}
    (h : fields.Accepts members slots last) (hnames : field.name ∉ members.map Prod.fst)
    (slot : Option α) : (Fields.cons field fields).Accepts members (slot, slots) (slot, last) := by
  induction h with
  | nil slots => exact .nil _
  | @cons name value members slots next last hfirst _ ih =>
    rw [List.map_cons, List.mem_cons, not_or] at hnames
    refine .cons ?_ (ih hnames.2)
    simp only [accept, if_neg hnames.1, hfirst]
    rfl

theorem plain_of_mem_encode {levels : Nat} {fields : Fields αs} (h : fields.Lawful levels)
    (values : Tuple αs) : ∀ member ∈ fields.encode values, Plain levels member.2 := by
  induction fields with
  | nil => exact fun member hmember ↦ absurd hmember List.not_mem_nil
  | cons field rest ih =>
    rw [encode, List.forall_mem_cons]
    exact ⟨h.1.plain values.1, ih h.2 values.2⟩

/-- Members that stand for the values of a tuple, one under the name of each field. -/
inductive Writes : {αs : List Type} → Fields αs → Tuple αs → List (String × Value) → Prop where
  | nil : Writes .nil () []
  | cons {α : Type} {αs : List Type} {field : Field α} {fields : Fields αs} {value : α}
      {values : Tuple αs} {written : Value} {members : List (String × Value)}
      (first : field.codec.decode written = .ok value) (rest : Writes fields values members) :
      Writes (.cons field fields) (value, values) ((field.name, written) :: members)

theorem writes_encode {levels : Nat} {fields : Fields αs} (h : fields.Lawful levels)
    (values : Tuple αs) : fields.Writes values (fields.encode values) := by
  induction fields with
  | nil => exact .nil
  | cons field rest ih => exact .cons (h.1.decode_encode values.1) (ih h.2 values.2)

theorem Writes.map_fst {fields : Fields αs} {values : Tuple αs} {members : List (String × Value)}
    (h : fields.Writes values members) : members.map Prod.fst = fields.names := by
  induction h with
  | nil => rfl
  | cons _ _ ih => rw [List.map_cons, ih, names]

/-- Members that stand for a tuple fill all slots with it. -/
theorem Writes.accepts {fields : Fields αs} {values : Tuple αs}
    {members : List (String × Value)} (h : fields.Writes values members)
    (hnames : fields.names.Nodup) : fields.Accepts members fields.emptySlots (fill values) := by
  induction h with
  | nil => exact .nil _
  | @cons α αs field rest value values written members hvalue hmembers ih =>
    rw [names, List.nodup_cons] at hnames
    have hwithin := Codec.decodeWithin_eq_ok hvalue (.string field.name)
    have hfirst : (Fields.cons field rest).accept field.name (.string field.name, written)
        (none, rest.emptySlots) = .ok (some (some value, rest.emptySlots)) := by
      rw [accept, if_pos rfl]
      simp only [hwithin]
      rfl
    refine .cons hfirst ((ih hnames.2).after ?_ (some value))
    rw [hmembers.map_fst]
    exact hnames.1

theorem complete_fill (fields : Fields αs) (values : Tuple αs) :
    fields.complete (fill values) = .ok values := by
  induction fields with
  | nil => rfl
  | cons field rest ih =>
    obtain ⟨value, values⟩ := values
    rw [fill, complete, Option.some_or]
    simp only [ih]
    rfl

end Fields

theorem RecordFormat.foldlM_acceptMember {αs : List Type} (format : RecordFormat αs)
    {members : List (String × Value)} {slots last : Slots αs}
    (h : format.fields.Accepts members slots last) :
    (members.map fun member ↦ (Value.string member.1, member.2)).foldlM
      format.acceptMember slots = .ok last := by
  induction h with
  | nil slots => rfl
  | @cons name value members slots next last hfirst _ ih =>
    have hmember : format.acceptMember slots (.string name, value) = .ok next := by
      have hname : decodeText "field identifier" (.string name) = .ok name := rfl
      simp only [acceptMember, hname]
      change (format.fields.accept name (.string name, value) slots >>= _) = _
      rw [hfirst]
      rfl
    rw [List.map_cons, List.foldlM_cons, hmember]
    exact ih

/-- A record is read from members that stand for its values. -/
theorem RecordFormat.decode_of_writes {αs : List Type} {format : RecordFormat αs}
    (hnames : format.fields.names.Nodup) {values : Tuple αs} {members : List (String × Value)}
    (h : format.fields.Writes values members) :
    format.decode (.ofMembers members) = .ok values := by
  have hslots := format.foldlM_acceptMember (h.accepts hnames)
  change ((_ : Except Complaint (Slots αs)) >>= format.fields.complete) = _
  rw [hslots]
  exact format.fields.complete_fill values

/-- A record is read back if its fields are and have different names. -/
theorem Codec.record_lawful {ρ : Type} {αs : List Type} {levels : Nat} {format : RecordFormat αs}
    {toTuple : ρ → Tuple αs} {ofTuple : Tuple αs → ρ} (h : format.fields.Lawful levels)
    (hnames : format.fields.names.Nodup) (htuple : ∀ value, ofTuple (toTuple value) = value) :
    (Codec.record format toTuple ofTuple).Lawful (levels + 1) where
  plain value := .map (Fields.plain_of_mem_encode h (toTuple value))
  decode_encode value := by
    have hdecode := RecordFormat.decode_of_writes hnames (Fields.writes_encode h (toTuple value))
    simp only [Codec.record, hdecode]
    exact congrArg Except.ok (htuple value)

/-- What a lawful codec writes as a JSON text of any layout is read back. -/
theorem decodeText_write {α : Type} {codec : Codec α} {levels : Nat} (h : codec.Lawful levels)
    (hlevels : levels < maxDepth) (layout : Layout) (value : α) :
    Json.decodeText codec (layout.write (codec.encode value)) = .ok value := by
  rw [Json.decodeText, decodeSymbols, readDocument_write layout (h.plain value) hlevels]
  simp only [h.decode_encode]
  rfl

theorem decodeBytes_toUTF8 {α : Type} (codec : Codec α) (text : String) :
    decodeBytes codec text.toUTF8.toList = Json.decodeText codec text := by
  rw [decodeBytes, symbols_toUTF8, Json.decodeText]

/-- The bytes of what a lawful codec writes in the pretty form are read back. -/
theorem decodeBytes_encodePretty {α : Type} {codec : Codec α} {levels : Nat}
    (h : codec.Lawful levels) (hlevels : levels < maxDepth) (value : α) :
    decodeBytes codec (encodePretty codec value).toUTF8.toList = .ok value := by
  rw [decodeBytes_toUTF8, encodePretty, ← Layout.write_lined, decodeText_write h hlevels]

end CommitCoordinator.Data
