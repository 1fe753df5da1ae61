import CommitCoordinator.Proofs.Data.Lawful
import Mathlib.Data.List.Forall2

/-!
# Values that are kept before they are read

Members that are kept until more is known of a record are read later from what was kept of them.
A codec allows that if what is kept of a written value is still read as the value.
-/

namespace CommitCoordinator.Data

/-- A codec whose written values can be kept and read later. -/
def Codec.Keeps {α : Type} (codec : Codec α) : Prop :=
  ∀ value, ∃ held, hold (codec.encode value) = .ok held ∧ codec.decode held = .ok value

/-- All fields have codecs whose values can be kept. -/
def Fields.Keeps : {αs : List Type} → Fields αs → Prop
  | _, .nil => True
  | _, .cons field rest => field.codec.Keeps ∧ rest.Keeps

/-- What is kept of a member: its name and what is kept of its value. -/
def IsHeld (member held : String × Value) : Prop :=
  held.1 = member.1 ∧ hold member.2 = .ok held.2

namespace Codec

theorem text_keeps : Codec.text.Keeps :=
  fun value ↦ ⟨.string value, by rw [text, hold] <;> nofun, rfl⟩

/-- What a codec writes as an integer is kept as it is. -/
theorem keeps_of_int {α : Type} {codec : Codec α} {levels : Nat} (h : codec.Lawful levels)
    (hint : ∀ value, ∃ n, codec.encode value = .int n) : codec.Keeps := by
  intro value
  obtain ⟨n, hn⟩ := hint value
  refine ⟨codec.encode value, ?_, h.decode_encode value⟩
  rw [hn, hold] <;> nofun

theorem int64_keeps : Codec.int64.Keeps :=
  keeps_of_int (int64_lawful : Codec.int64.Lawful 0) fun _ ↦ ⟨_, rfl⟩

theorem uint32_keeps : Codec.uint32.Keeps :=
  keeps_of_int (uint32_lawful : Codec.uint32.Lawful 0) fun _ ↦ ⟨_, rfl⟩

theorem holdItems_strings (index : Nat) (names : List String) :
    holdItems index (names.map .string) = .ok (names.map .string) := by
  induction names generalizing index with
  | nil => rw [List.map_nil, holdItems]
  | cons name rest ih =>
    have hname : hold (.string name) = .ok (.string name) := by rw [hold] <;> nofun
    rw [List.map_cons, holdItems, hname, ih]
    rfl

theorem sortedSet_keeps : Codec.sortedSet.Keeps := by
  intro set
  have hheld : hold (Codec.sortedSet.encode set) =
      .ok (.list .held (set.elements.map .string)) := by
    change hold (.ofItems (set.elements.map .string)) = _
    rw [hold, holdItems_strings]
    rfl
  exact ⟨_, hheld, (sortedSet_lawful : Codec.sortedSet.Lawful 1).decode_encode set⟩

end Codec

/-- What is kept of the members of a record still stands for its values. -/
theorem Fields.exists_held {αs : List Type} {fields : Fields αs} (h : fields.Keeps)
    (values : Tuple αs) : ∃ members, List.Forall₂ IsHeld (fields.encode values) members ∧
      fields.Writes values members := by
  induction fields with
  | nil => exact ⟨[], .nil, .nil⟩
  | cons field rest ih =>
    obtain ⟨held, hhold, hdecode⟩ := h.1 values.1
    obtain ⟨members, hmembers, hwrites⟩ := ih h.2 values.2
    exact ⟨(field.name, held) :: members, .cons ⟨rfl, hhold⟩ hmembers, .cons hdecode hwrites⟩

end CommitCoordinator.Data
