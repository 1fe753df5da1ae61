import CommitCoordinator.Data.Record

/-!
# Records that are read alike

Two record formats with the same names read the same values if their fields do. Where the fields of
one give the values of the other in another form, so does the record.
-/

namespace CommitCoordinator.Data

/-- Whether fields read as others do, the values and the slots for them being mapped. -/
inductive Fields.Follows : {αs βs : List Type} → Fields αs → Fields βs → (Tuple αs → Tuple βs) →
    (Slots αs → Slots βs) → Prop where
  | nil : Follows .nil .nil id id
  | cons {α β : Type} {αs βs : List Type} {field : Field α} {other : Field β} {f : α → β}
      {rest : Fields αs} {others : Fields βs} {onTuple : Tuple αs → Tuple βs}
      {onSlots : Slots αs → Slots βs} (name : other.name = field.name)
      (decode : ∀ value, other.codec.decode value = f <$> field.codec.decode value)
      (default? : other.default? = field.default?.map f)
      (follows : Follows rest others onTuple onSlots) :
      Follows (.cons field rest) (.cons other others) (Prod.map f onTuple)
        (Prod.map (Option.map f) onSlots)

theorem mapError_map {ε ε' α β : Type} (f : α → β) (g : ε → ε') (x : Except ε α) :
    (f <$> x).mapError g = f <$> x.mapError g := by
  cases x <;> rfl

theorem except_ok_bind {ε α β : Type} (value : α) (f : α → Except ε β) :
    Except.ok value >>= f = f value :=
  rfl

theorem except_map_ok {ε α β : Type} (f : α → β) (value : α) :
    f <$> (Except.ok value : Except ε α) = .ok (f value) :=
  rfl

/-- A fold follows another one whose steps its own steps follow. -/
theorem foldlM_of_commutes {ε α σ τ : Type} {step : σ → α → Except ε σ} {step' : τ → α → Except ε τ}
    {f : σ → τ} (h : ∀ state item, step' (f state) item = f <$> step state item)
    (items : List α) (state : σ) :
    items.foldlM step' (f state) = f <$> items.foldlM step state := by
  induction items generalizing state with
  | nil => rfl
  | cons item items ih =>
    rw [List.foldlM_cons, List.foldlM_cons, h]
    cases step state item with
    | error problem => rfl
    | ok next => exact ih next

namespace Fields.Follows

variable {αs βs : List Type} {fields : Fields αs} {others : Fields βs}
  {onTuple : Tuple αs → Tuple βs} {onSlots : Slots αs → Slots βs}

theorem names_eq (h : fields.Follows others onTuple onSlots) : others.names = fields.names := by
  induction h with
  | nil => rfl
  | cons name _ _ _ ih => rw [names, names, name, ih]

theorem emptySlots_eq (h : fields.Follows others onTuple onSlots) :
    others.emptySlots = onSlots fields.emptySlots := by
  induction h with
  | nil => rfl
  | cons _ _ _ _ ih => rw [emptySlots, emptySlots, ih]; rfl

theorem accept_eq (h : fields.Follows others onTuple onSlots) (name : String)
    (member : Value × Value) (slots : Slots αs) :
    others.accept name member (onSlots slots) =
      Option.map onSlots <$> fields.accept name member slots := by
  induction h with
  | nil => rfl
  | @cons α β αs βs field other f rest others onTuple onSlots hname hdecode _ _ ih =>
    obtain ⟨slot, slots⟩ := slots
    change accept name member (.cons other others) (slot.map f, onSlots slots) = _
    unfold accept
    rw [hname]
    split
    · cases slot with
      | some value => rfl
      | none =>
        dsimp only [Option.map]
        have hwithin : decodeWithin other.codec.decode member.1 member.2 =
            f <$> decodeWithin field.codec.decode member.1 member.2 := by
          rw [decodeWithin, hdecode, mapError_map, decodeWithin]
        rw [hwithin]
        cases decodeWithin field.codec.decode member.1 member.2 <;> rfl
    · rw [ih]
      cases rest.accept name member slots with
      | error complaint => rfl
      | ok accepted => cases accepted <;> rfl

theorem complete_eq (h : fields.Follows others onTuple onSlots) (slots : Slots αs) :
    others.complete (onSlots slots) = onTuple <$> fields.complete slots := by
  induction h with
  | nil => rfl
  | @cons α β αs βs field other f rest others onTuple onSlots hname _ hdefault _ ih =>
    obtain ⟨slot, slots⟩ := slots
    change complete (.cons other others) (slot.map f, onSlots slots) = _
    have hvalue : (slot.map f).or other.default? = (slot.or field.default?).map f := by
      rw [hdefault]
      cases slot <;> rfl
    rw [complete, complete, hvalue, hname]
    cases slot.or field.default? with
    | none => rfl
    | some value =>
      dsimp only [Option.map]
      rw [ih]
      cases rest.complete slots <;> rfl

theorem ofItems_eq (h : fields.Follows others onTuple onSlots) (shortage : Nat → Problem)
    (position : Nat) (items : List Value) :
    others.ofItems shortage position items =
      Prod.map onTuple id <$> fields.ofItems shortage position items := by
  induction h generalizing position items with
  | nil => rfl
  | @cons α β αs βs field other f rest others onTuple onSlots _ hdecode hdefault _ ih =>
    cases items with
    | nil =>
      rw [ofItems, ofItems, hdefault]
      cases field.default? with
      | none => rfl
      | some value =>
        dsimp only [Option.map]
        rw [ih]
        cases rest.ofItems shortage (position + 1) [] <;> rfl
    | cons item items =>
      rw [ofItems, ofItems, hdecode]
      cases field.codec.decode item with
      | error complaint => rfl
      | ok value =>
        change others.ofItems shortage (position + 1) items >>= _ = _
        rw [ih]
        change _ = Prod.map _ id <$> (rest.ofItems shortage (position + 1) items >>= _)
        cases rest.ofItems shortage (position + 1) items <;> rfl

end Fields.Follows

namespace RecordFormat

variable {αs βs : List Type} {format : RecordFormat αs} {other : RecordFormat βs}
  {onTuple : Tuple αs → Tuple βs} {onSlots : Slots αs → Slots βs}

theorem acceptMember_of_follows (h : format.fields.Follows other.fields onTuple onSlots)
    (hrefuses : other.refusesUnknown = format.refusesUnknown) (slots : Slots αs)
    (member : Value × Value) :
    other.acceptMember (onSlots slots) member = onSlots <$> format.acceptMember slots member := by
  unfold acceptMember
  cases decodeText "field identifier" member.1 with
  | error complaint => rfl
  | ok name =>
    simp only [except_ok_bind, h.accept_eq, h.names_eq, hrefuses]
    cases format.fields.accept name member slots with
    | error complaint => rfl
    | ok accepted =>
      cases accepted with
      | some slots => rfl
      | none =>
        simp only [except_map_ok, except_ok_bind, Option.map_none]
        cases format.refusesUnknown with
        | true => rfl
        | false => cases skip member.2 <;> rfl

theorem decodeMembers_of_follows (h : format.fields.Follows other.fields onTuple onSlots)
    (hrefuses : other.refusesUnknown = format.refusesUnknown) (members : List (Value × Value)) :
    other.decodeMembers members = onTuple <$> format.decodeMembers members := by
  rw [decodeMembers, decodeMembers, h.emptySlots_eq,
    foldlM_of_commutes (acceptMember_of_follows h hrefuses)]
  cases members.foldlM format.acceptMember format.fields.emptySlots with
  | error complaint => rfl
  | ok slots => exact h.complete_eq slots

theorem decodeItems_of_follows (h : format.fields.Follows other.fields onTuple onSlots)
    (htitle : other.title = format.title) (form : ListForm) (items : List Value) :
    other.decodeItems form items = onTuple <$> format.decodeItems form items := by
  unfold decodeItems
  simp only [h.names_eq, htitle, h.ofItems_eq]
  generalize format.fields.ofItems _ 0 items = read
  cases read with
  | error complaint => rfl
  | ok read =>
    obtain ⟨values, rest⟩ := read
    simp only [except_map_ok, except_ok_bind, Prod.map, id]
    split
    · rfl
    · split <;> rfl

/-- Formats that differ in their fields only read alike if the fields do. -/
theorem decode_of_follows (h : format.fields.Follows other.fields onTuple onSlots)
    (htitle : other.title = format.title) (hrefuses : other.refusesUnknown = format.refusesUnknown)
    (value : Value) : other.decode value = onTuple <$> format.decode value := by
  fun_induction RecordFormat.decode format value with
  | case1 items =>
    rw [decode, htitle, mismatch]
    rfl
  | case2 form items hform =>
    rw [decode]
    · exact decodeItems_of_follows h htitle form items
    · exact hform
  | case3 value ih => rw [decode, ih]
  | case4 value hitems hlist htagged =>
    rw [decode, htitle]
    · cases membersOf format.title value with
      | error complaint => rfl
      | ok members => exact decodeMembers_of_follows h hrefuses members
    · exact hitems
    · exact hlist
    · exact htagged

end RecordFormat

/-- Records with fields that read alike are read alike, if what they are made into follows. -/
theorem Codec.decode_record_of_follows {ρ ρ' : Type} {αs βs : List Type} {fields : Fields αs}
    {others : Fields βs} {onTuple : Tuple αs → Tuple βs} {onSlots : Slots αs → Slots βs}
    (h : fields.Follows others onTuple onSlots) {toTuple : ρ → Tuple αs} {ofTuple : Tuple αs → ρ}
    {toTuple' : ρ' → Tuple βs} {ofTuple' : Tuple βs → ρ'} {f : ρ → ρ'}
    (hof : ∀ values, ofTuple' (onTuple values) = f (ofTuple values)) (title : String)
    (refusesUnknown : Bool) (value : Value) :
    (Codec.record ⟨title, others, refusesUnknown⟩ toTuple' ofTuple').decode value =
      f <$> (Codec.record ⟨title, fields, refusesUnknown⟩ toTuple ofTuple).decode value := by
  have hdecode : RecordFormat.decode ⟨title, others, refusesUnknown⟩ value =
      onTuple <$> RecordFormat.decode ⟨title, fields, refusesUnknown⟩ value := by
    apply RecordFormat.decode_of_follows
    · exact h
    · rfl
    · rfl
  change ofTuple' <$> RecordFormat.decode _ value = f <$> ofTuple <$> RecordFormat.decode _ value
  rw [hdecode]
  cases RecordFormat.decode ⟨title, fields, refusesUnknown⟩ value with
  | error complaint => rfl
  | ok values => exact congrArg Except.ok (hof values)

end CommitCoordinator.Data
