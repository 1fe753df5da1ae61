import CommitCoordinator.Proofs.Json.Layout
import CommitCoordinator.Proofs.Json.Scalars
import Mathlib.Data.List.TakeWhile

/-!
# Reading back JSON documents

A value that is built of the kinds that JSON has a form for, with names as keys and not nested
too deeply, is read back from its compact and its pretty form as it was written. The reader passes
over the blanks of every layout, and the length of the text bounds the steps that it takes.
-/

namespace CommitCoordinator.Json

open Data Text

/-- Values that JSON has a form for, nested within a number of levels. -/
inductive Plain : Nat → Value → Prop where
  | null {levels : Nat} : Plain levels .null
  | bool {levels : Nat} (value : Bool) : Plain levels (.bool value)
  | int {levels : Nat} {value : Int} (exact : IsExact value) : Plain levels (.int value)
  | string {levels : Nat} (text : String) : Plain levels (.string text)
  | list {levels : Nat} {items : List Value} (plain : ∀ item ∈ items, Plain levels item) :
      Plain (levels + 1) (.ofItems items)
  | map {levels : Nat} {members : List (String × Value)}
      (plain : ∀ member ∈ members, Plain levels member.2) :
      Plain (levels + 1) (.ofMembers members)

theorem Plain.mono {levels levels' : Nat} {value : Value} (h : Plain levels value)
    (hle : levels ≤ levels') : Plain levels' value := by
  induction h generalizing levels' with
  | null => exact .null
  | bool value => exact .bool value
  | int hexact => exact .int hexact
  | string text => exact .string text
  | list _ ih =>
    obtain ⟨levels', rfl⟩ := Nat.exists_eq_add_one.2 (Nat.zero_lt_of_lt hle)
    exact .list fun item hitem ↦ ih item hitem (Nat.le_of_succ_le_succ hle)
  | map _ ih =>
    obtain ⟨levels', rfl⟩ := Nat.exists_eq_add_one.2 (Nat.zero_lt_of_lt hle)
    exact .map fun member hmember ↦ ih member hmember (Nat.le_of_succ_le_succ hle)

/-! ## Blanks -/

theorem skipSpace_skipSpace (text : List Symbol) : skipSpace (skipSpace text) = skipSpace text :=
  List.dropWhile_eq_self_iff.2 (List.dropWhile_get_zero_not _ text)

theorem skipSpace_cons {symbol : Symbol} (h : isSpace symbol = false) (text : List Symbol) :
    skipSpace (symbol :: text) = symbol :: text :=
  List.dropWhile_cons_of_neg (Bool.not_eq_true _ ▸ h)

theorem skipSpace_blanks {blanks : List Char} (h : ∀ c ∈ blanks, isSpace (some c) = true)
    (text : List Char) : skipSpace ((blanks ++ text).map some) = skipSpace (text.map some) := by
  induction blanks with
  | nil => rfl
  | cons c rest ih =>
    rw [List.forall_mem_cons] at h
    exact (List.dropWhile_cons_of_pos h.1).trans (ih h.2)

theorem readValue_skipSpace (depth fuel : Nat) (text : List Symbol) :
    readValue depth fuel (skipSpace text) = readValue depth fuel text := by
  cases fuel with
  | zero => rw [readValue, readValue]
  | succ fuel => rw [readValue, readValue, skipSpace_skipSpace]

theorem readItems_skipSpace (depth fuel : Nat) (text : List Symbol) :
    readItems depth fuel (skipSpace text) = readItems depth fuel text := by
  cases fuel with
  | zero => rw [readItems, readItems]
  | succ fuel => rw [readItems, readItems, readValue_skipSpace]

theorem readMembers_skipSpace (depth fuel : Nat) (text : List Symbol) :
    readMembers depth fuel (skipSpace text) = readMembers depth fuel text := by
  cases fuel with
  | zero => rw [readMembers, readMembers]
  | succ fuel => rw [readMembers, readMembers, skipSpace_skipSpace]

theorem endsNumber_cons {c : Char} (h : c ∈ [',', ']', '}', ' ', '\n', '\t', '\r'])
    (rest : List Symbol) : EndsNumber (some c :: rest) := by
  rintro _ ⟨⟩
  simp only [List.mem_cons, List.not_mem_nil, or_false] at h
  rcases h with rfl | rfl | rfl | rfl | rfl | rfl | rfl <;>
    exact ⟨rfl, by decide, by decide, by decide⟩

/-- A number ends where blanks begin, or else what stands behind them. -/
theorem endsNumber_blanks {blanks : List Char} (h : ∀ c ∈ blanks, isSpace (some c) = true)
    {text : List Char} (htext : EndsNumber (text.map some)) :
    EndsNumber ((blanks ++ text).map some) := by
  cases blanks with
  | nil => exact htext
  | cons c rest =>
    have hblank := h c List.mem_cons_self
    simp only [isSpace, Bool.or_eq_true, decide_eq_true_iff] at hblank
    refine endsNumber_cons ?_ _
    simp only [List.mem_cons, List.not_mem_nil, or_false]
    rcases hblank with ((h | h) | h) | h <;> simp only [h, true_or, or_true]

/-! ## Printed lists and maps -/

/-- Members as a map holds them. -/
def named (members : List (String × Value)) : List (Value × Value) :=
  members.map fun member ↦ (.string member.1, member.2)

namespace Layout

variable (layout : Layout) (level : Nat)

/-- Text on a line of a level. -/
def startLine (text : List Char) : List Char :=
  layout.line level ++ text

/-- A member as it stands on its line. -/
def printMember (member : String × Value) (rest : List Char) : List Char :=
  printString member.1 (':' :: (layout.gap ++ layout.print (level + 1) member.2 rest))

/-- What stands behind an item of a list. -/
def afterItem (items : List Value) (rest : List Char) : List Char :=
  layout.printItems level items (layout.startLine level (']' :: rest))

/-- What stands behind a member of a map. -/
def afterMember (members : List (String × Value)) (rest : List Char) : List Char :=
  layout.printMembers level (named members) (layout.startLine level ('}' :: rest))

theorem print_items (item : Value) (items : List Value) (rest : List Char) :
    layout.print level (.ofItems (item :: items)) rest = '[' :: layout.startLine (level + 1)
      (layout.print (level + 1) item (layout.afterItem level items rest)) := by
  rw [print]
  rfl

theorem afterItem_cons (item : Value) (items : List Value) (rest : List Char) :
    layout.afterItem level (item :: items) rest = ',' :: layout.startLine (level + 1)
      (layout.print (level + 1) item (layout.afterItem level items rest)) := by
  rw [afterItem, printItems]
  rfl

theorem print_named (name : String) (rest : List Char) :
    layout.print level (.string name) rest = printString name rest := by
  simp [print, printScalar]

theorem print_members (member : String × Value) (members : List (String × Value))
    (rest : List Char) :
    layout.print level (.ofMembers (member :: members)) rest = '{' :: layout.startLine (level + 1)
      (layout.printMember level member (layout.afterMember level members rest)) := by
  rw [Value.ofMembers, List.map_cons, print, print_named]
  rfl

theorem afterMember_cons (member : String × Value) (members : List (String × Value))
    (rest : List Char) :
    layout.afterMember level (member :: members) rest = ',' :: layout.startLine (level + 1)
      (layout.printMember level member (layout.afterMember level members rest)) := by
  rw [afterMember, named, List.map_cons, printMembers, print_named]
  rfl

end Layout

/-! ## Lengths -/

theorem length_escapeChar_pos (c : Char) : 0 < (escapeChar c).length := by
  unfold escapeChar
  split_ifs <;> exact Nat.succ_pos _

theorem length_printString (text : String) (rest : List Char) :
    text.toList.length + 2 + rest.length ≤ (printString text rest).length := by
  have hescaped (cs : List Char) : cs.length ≤ (cs.flatMap escapeChar).length := by
    induction cs with
    | nil => exact Nat.le_refl 0
    | cons c cs ih =>
      have hpos := length_escapeChar_pos c
      rw [List.flatMap_cons, List.length_append, List.length_cons]
      omega
  have htext := hescaped text.toList
  rw [printString, List.length_cons, List.length_append, List.length_cons]
  omega

theorem length_printScalar (value : Value) (rest : List Char) :
    rest.length < (printScalar value rest).length := by
  have hword {word : List Char} (h : word ≠ []) : rest.length < (word ++ rest).length := by
    rw [List.length_append]
    exact Nat.lt_add_of_pos_left (List.length_pos_iff.2 h)
  have hint (value : Int) : (toString value).toList ≠ [] := by
    rw [Int.toString_eq_repr]
    cases value with
    | ofNat n => exact toList_repr_ofNat n ▸ Nat.toDigits_ne_nil
    | negSucc n => exact toList_repr_negSucc n ▸ List.cons_ne_nil _ _
  unfold printScalar
  split
  · exact hword (by decide)
  · exact hword (by decide)
  · exact hword (hint _)
  · next text =>
    have htext := length_printString text rest
    omega
  · exact hword (by decide)

section Lengths

variable (layout : Layout)

theorem length_startLine (level : Nat) (text : List Char) :
    text.length ≤ (layout.startLine level text).length := by
  rw [Layout.startLine, List.length_append]
  omega

theorem length_printMember (level : Nat) (member : String × Value) (rest : List Char) :
    member.1.toList.length + 3 + (layout.print (level + 1) member.2 rest).length ≤
      (layout.printMember level member rest).length := by
  have hname := length_printString member.1
    (':' :: (layout.gap ++ layout.print (level + 1) member.2 rest))
  rw [List.length_cons, List.length_append] at hname
  rw [Layout.printMember]
  omega

theorem length_afterItem (level : Nat) {items : List Value}
    (h : ∀ item ∈ items, ∀ level rest, rest.length < (layout.print level item rest).length)
    (rest : List Char) : rest.length < (layout.afterItem level items rest).length := by
  induction items with
  | nil =>
    have hend := length_startLine layout level (']' :: rest)
    exact Nat.lt_of_succ_le hend
  | cons item items ih =>
    have hrest := ih fun other hother ↦ h other (List.mem_cons_of_mem item hother)
    have hitem := h item List.mem_cons_self (level + 1) (layout.afterItem level items rest)
    have hline := length_startLine layout (level + 1)
      (layout.print (level + 1) item (layout.afterItem level items rest))
    rw [Layout.afterItem_cons, List.length_cons]
    omega

theorem length_afterMember (level : Nat) {members : List (String × Value)}
    (h : ∀ member ∈ members, ∀ level rest,
      rest.length < (layout.print level member.2 rest).length)
    (rest : List Char) : rest.length < (layout.afterMember level members rest).length := by
  induction members with
  | nil =>
    have hend := length_startLine layout level ('}' :: rest)
    exact Nat.lt_of_succ_le hend
  | cons member members ih =>
    have hrest := ih fun other hother ↦ h other (List.mem_cons_of_mem member hother)
    have hvalue := h member List.mem_cons_self (level + 1) (layout.afterMember level members rest)
    have hmember := length_printMember layout level member (layout.afterMember level members rest)
    have hline := length_startLine layout (level + 1)
      (layout.printMember level member (layout.afterMember level members rest))
    rw [Layout.afterMember_cons, List.length_cons]
    omega

/-- A printed value has a length of its own. -/
theorem Plain.length_lt {levels : Nat} {value : Value} (h : Plain levels value) :
    ∀ level rest, rest.length < (layout.print level value rest).length := by
  induction h with
  | null => exact fun _ ↦ length_printScalar _
  | bool value => exact fun _ ↦ length_printScalar _
  | int _ => exact fun _ ↦ length_printScalar _
  | string text => exact fun _ ↦ length_printScalar _
  | @list _ items _ ih =>
    intro level rest
    cases items with
    | nil => exact Nat.lt_add_of_pos_right (Nat.succ_pos 1)
    | cons item items =>
      have hafter := length_afterItem layout level
        (fun other hother ↦ ih other (List.mem_cons_of_mem item hother)) rest
      have hitem := ih item List.mem_cons_self (level + 1) (layout.afterItem level items rest)
      have hline := length_startLine layout (level + 1)
        (layout.print (level + 1) item (layout.afterItem level items rest))
      rw [Layout.print_items, List.length_cons]
      omega
  | @map _ members _ ih =>
    intro level rest
    cases members with
    | nil => exact Nat.lt_add_of_pos_right (Nat.succ_pos 1)
    | cons member members =>
      have hafter := length_afterMember layout level
        (fun other hother ↦ ih other (List.mem_cons_of_mem member hother)) rest
      have hvalue := ih member List.mem_cons_self (level + 1)
        (layout.afterMember level members rest)
      have hmember := length_printMember layout level member (layout.afterMember level members rest)
      have hline := length_startLine layout (level + 1)
        (layout.printMember level member (layout.afterMember level members rest))
      rw [Layout.print_members, List.length_cons]
      omega

end Lengths

/-! ## Reading -/

/-- The characters that an integer may begin with. -/
def StartsInt (c : Char) : Prop :=
  c = '-' ∨ c.isDigit = true

theorem StartsInt.ne {c other : Char} (h : StartsInt c)
    (hother : ¬ (other = '-' ∨ other.isDigit = true)) : c ≠ other :=
  fun heq ↦ hother (heq ▸ h)

theorem StartsInt.isSpace_eq {c : Char} (h : StartsInt c) : isSpace (some c) = false := by
  have hblank : c ≠ ' ' := h.ne (by decide)
  have hline : c ≠ '\n' := h.ne (by decide)
  have htab : c ≠ '\t' := h.ne (by decide)
  have hreturn : c ≠ '\r' := h.ne (by decide)
  simp only [isSpace, hblank, hline, htab, hreturn, decide_false, Bool.or_self]

theorem exists_startsInt (value : Int) (rest : List Char) :
    ∃ c tail, printInt value rest = c :: tail ∧ StartsInt c := by
  rw [printInt, Int.toString_eq_repr]
  cases value with
  | ofNat n =>
    obtain ⟨c, digits, hdigits, hdigit⟩ := toDigits_eq_cons n
    exact ⟨c, digits ++ rest, by rw [toList_repr_ofNat, hdigits, List.cons_append], .inr hdigit⟩
  | negSucc n =>
    refine ⟨'-', Nat.toDigits 10 (n + 1) ++ rest, ?_, .inl rfl⟩
    rw [toList_repr_negSucc, List.cons_append]

theorem readValue_number (depth fuel : Nat) {c : Char} (h : StartsInt c) (text : List Symbol) :
    readValue depth (fuel + 1) (some c :: text) =
      match readNumber (some c :: text) with
      | some (value, rest) => (value, some rest)
      | none => (.broken, none) := by
  rw [readValue, skipSpace_cons h.isSpace_eq]
  split
  · next heq => cases heq; exact absurd rfl (h.ne (by decide))
  · next heq => cases heq; exact absurd rfl (h.ne (by decide))
  · next heq => cases heq; exact absurd rfl (h.ne (by decide))
  · next heq => cases heq; exact absurd rfl (h.ne (by decide))
  · next heq => cases heq; exact absurd rfl (h.ne (by decide))
  · next heq => cases heq; exact absurd rfl (h.ne (by decide))
  · rfl

theorem readWord_append (word : String) (value : Value) (rest : List Char) :
    readWord word value ((word.toList ++ rest).map some) = (value, some (rest.map some)) := by
  have hlength : (word.toList.map some).length = word.length := by
    rw [List.length_map]
    exact String.length_toList
  rw [readWord, symbolsOfText, List.map_append, ← hlength, List.take_left, if_pos rfl,
    List.drop_left]

/-- A printed string is read back whole. -/
theorem readString_printString (text : String) {fuel : Nat} (hfuel : text.toList.length < fuel)
    (rest : List Char) :
    readString fuel ((text.toList.flatMap escapeChar ++ '"' :: rest).map some) =
      some (some text.toList, rest.map some) := by
  rw [List.map_append]
  exact readString_flatMap text.toList hfuel (rest.map some)

theorem limitDepth_of_lt {depth : Nat} (h : depth < maxDepth) (value : Value) :
    limitDepth depth value = value :=
  if_pos h

section Layouts

variable (layout : Layout)

/-- A printed value begins with a symbol that is no blank and ends no list. -/
theorem Plain.head_print {levels : Nat} {value : Value} (h : Plain levels value)
    (level : Nat) (rest : List Char) : ∃ c tail, layout.print level value rest = c :: tail ∧
      isSpace (some c) = false ∧ c ≠ ']' := by
  cases h with
  | null => exact ⟨'n', _, rfl, rfl, by decide⟩
  | bool value => cases value <;> exact ⟨_, _, rfl, rfl, by decide⟩
  | @int _ value _ =>
    obtain ⟨c, tail, hprint, hstart⟩ := exists_startsInt value rest
    exact ⟨c, tail, hprint, hstart.isSpace_eq, hstart.ne (by decide)⟩
  | string text => exact ⟨'"', _, rfl, rfl, by decide⟩
  | @list _ items _ => cases items <;> exact ⟨'[', _, rfl, rfl, by decide⟩
  | @map _ members _ => cases members <;> exact ⟨'{', _, rfl, rfl, by decide⟩

theorem skipSpace_startLine (level : Nat) (text : List Char) :
    skipSpace ((layout.startLine level text).map some) = skipSpace (text.map some) :=
  skipSpace_blanks (layout.blank_line level) text

theorem readItems_startLine (depth fuel level : Nat) (text : List Char) :
    readItems depth fuel ((layout.startLine level text).map some) =
      readItems depth fuel (text.map some) := by
  rw [← readItems_skipSpace, skipSpace_startLine, readItems_skipSpace]

theorem readMembers_startLine (depth fuel level : Nat) (text : List Char) :
    readMembers depth fuel ((layout.startLine level text).map some) =
      readMembers depth fuel (text.map some) := by
  rw [← readMembers_skipSpace, skipSpace_startLine, readMembers_skipSpace]

/-- A value that is read back wherever it is printed, given enough steps. -/
def ReadsBack (depth : Nat) (value : Value) : Prop :=
  ∀ (level : Nat) (rest : List Char) (fuel : Nat), EndsNumber (rest.map some) →
    (layout.print level value rest).length ≤ fuel + rest.length →
      readValue depth fuel ((layout.print level value rest).map some) =
        (value, some (rest.map some))

theorem endsNumber_afterItem (level : Nat) (items : List Value) (rest : List Char) :
    EndsNumber ((layout.afterItem level items rest).map some) := by
  cases items with
  | nil => exact endsNumber_blanks (layout.blank_line level) (endsNumber_cons (by decide) _)
  | cons item items =>
    rw [Layout.afterItem_cons]
    exact endsNumber_cons (by decide) _

theorem endsNumber_afterMember (level : Nat) (members : List (String × Value))
    (rest : List Char) : EndsNumber ((layout.afterMember level members rest).map some) := by
  cases members with
  | nil => exact endsNumber_blanks (layout.blank_line level) (endsNumber_cons (by decide) _)
  | cons member members =>
    rw [Layout.afterMember_cons]
    exact endsNumber_cons (by decide) _

theorem skipSpace_afterItem_nil (level : Nat) (rest : List Char) :
    skipSpace ((layout.afterItem level [] rest).map some) = some ']' :: rest.map some :=
  skipSpace_startLine layout level (']' :: rest)

theorem skipSpace_afterItem_cons (level : Nat) (item : Value) (items : List Value)
    (rest : List Char) :
    skipSpace ((layout.afterItem level (item :: items) rest).map some) =
      some ',' :: (layout.startLine (level + 1) (layout.print (level + 1) item
        (layout.afterItem level items rest))).map some := by
  rw [Layout.afterItem_cons]
  rfl

theorem skipSpace_afterMember_nil (level : Nat) (rest : List Char) :
    skipSpace ((layout.afterMember level [] rest).map some) = some '}' :: rest.map some :=
  skipSpace_startLine layout level ('}' :: rest)

theorem skipSpace_afterMember_cons (level : Nat) (member : String × Value)
    (members : List (String × Value)) (rest : List Char) :
    skipSpace ((layout.afterMember level (member :: members) rest).map some) =
      some ',' :: (layout.startLine (level + 1) (layout.printMember level member
        (layout.afterMember level members rest))).map some := by
  rw [Layout.afterMember_cons]
  rfl

/-- Items are read back up to the end of their list. -/
theorem readItems_afterItem (depth level : Nat) {item : Value} {items : List Value}
    (h : ∀ other ∈ item :: items, ReadsBack layout depth other)
    (hlength : ∀ other ∈ item :: items, ∀ level rest,
      rest.length < (layout.print level other rest).length) (rest : List Char) {fuel : Nat}
    (hfuel : (layout.print (level + 1) item (layout.afterItem level items rest)).length ≤
      fuel + rest.length) :
    readItems depth fuel
        ((layout.print (level + 1) item (layout.afterItem level items rest)).map some) =
      (item :: items, some (rest.map some)) := by
  induction items generalizing item fuel with
  | nil =>
    have hafter : rest.length < (layout.afterItem level [] rest).length :=
      length_afterItem layout level (fun _ hother ↦ absurd hother List.not_mem_nil) rest
    have hitem := hlength item List.mem_cons_self (level + 1) (layout.afterItem level [] rest)
    obtain ⟨fuel, rfl⟩ : ∃ steps, fuel = steps + 1 := Nat.exists_eq_add_one.2 (by omega)
    have hread := h item List.mem_cons_self (level + 1) (layout.afterItem level [] rest) fuel
      (endsNumber_afterItem layout level [] rest) (by omega)
    rw [readItems, hread]
    simp only [skipSpace_afterItem_nil]
  | cons next items ih =>
    have hnext := fun other hother ↦ hlength other (List.mem_cons_of_mem item hother)
    have hafter := length_afterItem layout level hnext rest
    have hitem := hlength item List.mem_cons_self (level + 1)
      (layout.afterItem level (next :: items) rest)
    obtain ⟨fuel, rfl⟩ : ∃ steps, fuel = steps + 1 := Nat.exists_eq_add_one.2 (by omega)
    have hread := h item List.mem_cons_self (level + 1)
      (layout.afterItem level (next :: items) rest) fuel
      (endsNumber_afterItem layout level (next :: items) rest) (by omega)
    have hline := length_startLine layout (level + 1)
      (layout.print (level + 1) next (layout.afterItem level items rest))
    have hcomma : (layout.afterItem level (next :: items) rest).length =
        (layout.startLine (level + 1)
          (layout.print (level + 1) next (layout.afterItem level items rest))).length + 1 := by
      rw [Layout.afterItem_cons, List.length_cons]
    have hrest : (layout.print (level + 1) next (layout.afterItem level items rest)).length ≤
        fuel + rest.length := by
      omega
    have htail := ih (fun other hother ↦ h other (List.mem_cons_of_mem item hother)) hnext hrest
    rw [readItems, hread]
    simp only [skipSpace_afterItem_cons, readItems_startLine, htail]

theorem skipSpace_printMember (level : Nat) (member : String × Value) (rest : List Char) :
    skipSpace ((layout.printMember level member rest).map some) = some '"' ::
      (member.1.toList.flatMap escapeChar ++ '"' :: ':' :: (layout.gap ++
        layout.print (level + 1) member.2 rest)).map some :=
  rfl

/-- Reads what stands behind a member of a map. -/
def readBehind (depth fuel : Nat) (member : Value × Value) (text : List Symbol) :
    List (Value × Value) × Option (List Symbol) :=
  match text with
  | some ',' :: rest =>
    let (members, rest) := readMembers depth fuel rest
    (member :: members, rest)
  | some '}' :: rest => ([member], some rest)
  | _ => ([member, (.broken, .broken)], none)

/-- The name and the value of a member are read back before what follows them. -/
theorem readMembers_printMember {depth : Nat} (level fuel : Nat) {member : String × Value}
    (h : ReadsBack layout depth member.2) {rest : List Char} (hrest : EndsNumber (rest.map some))
    (hlength : rest.length < (layout.print (level + 1) member.2 rest).length)
    (hfuel : (layout.printMember level member rest).length ≤ fuel + 3 + rest.length) :
    readMembers depth (fuel + 1) ((layout.printMember level member rest).map some) =
      readBehind depth fuel (.string member.1, member.2) (skipSpace (rest.map some)) := by
  have hmember := length_printMember layout level member rest
  generalize hvalueText : layout.print (level + 1) member.2 rest = text at hlength hmember
  have hname : readString (fuel + 1) ((member.1.toList.flatMap escapeChar ++
      '"' :: ':' :: (layout.gap ++ text)).map some) =
        some (some member.1.toList, (':' :: (layout.gap ++ text)).map some) := by
    apply readString_printString
    omega
  have hvalue : readValue depth fuel ((layout.gap ++ text).map some) =
      (member.2, some (rest.map some)) := by
    rw [← readValue_skipSpace, skipSpace_blanks layout.blank_gap, readValue_skipSpace, ← hvalueText]
    exact h (level + 1) rest fuel hrest (by rw [hvalueText]; omega)
  have hcolon : skipSpace ((':' :: (layout.gap ++ text)).map some) =
      some ':' :: (layout.gap ++ text).map some := rfl
  rw [readMembers, skipSpace_printMember, hvalueText]
  simp only [hname, hcolon, hvalue, stringValue, String.ofList_toList]
  rfl

/-- Members are read back up to the end of their map. -/
theorem readMembers_afterMember (depth level : Nat) {member : String × Value}
    {members : List (String × Value)}
    (h : ∀ other ∈ member :: members, ReadsBack layout depth other.2)
    (hlength : ∀ other ∈ member :: members, ∀ level rest,
      rest.length < (layout.print level other.2 rest).length) (rest : List Char) {fuel : Nat}
    (hfuel : (layout.printMember level member (layout.afterMember level members rest)).length ≤
      fuel + rest.length) :
    readMembers depth fuel
        ((layout.printMember level member (layout.afterMember level members rest)).map some) =
      (named (member :: members), some (rest.map some)) := by
  induction members generalizing member fuel with
  | nil =>
    have hafter : rest.length < (layout.afterMember level [] rest).length :=
      length_afterMember layout level (fun _ hother ↦ absurd hother List.not_mem_nil) rest
    have hvalue := hlength member List.mem_cons_self (level + 1) (layout.afterMember level [] rest)
    have hmember := length_printMember layout level member (layout.afterMember level [] rest)
    obtain ⟨fuel, rfl⟩ : ∃ steps, fuel = steps + 1 := Nat.exists_eq_add_one.2 (by omega)
    have hread := readMembers_printMember layout level fuel (h member List.mem_cons_self)
      (endsNumber_afterMember layout level [] rest) hvalue (by omega)
    rw [hread, skipSpace_afterMember_nil]
    rfl
  | cons next members ih =>
    have hnext := fun other hother ↦ hlength other (List.mem_cons_of_mem member hother)
    have hafter := length_afterMember layout level hnext rest
    have hvalue := hlength member List.mem_cons_self (level + 1)
      (layout.afterMember level (next :: members) rest)
    have hmember := length_printMember layout level member
      (layout.afterMember level (next :: members) rest)
    obtain ⟨fuel, rfl⟩ : ∃ steps, fuel = steps + 1 := Nat.exists_eq_add_one.2 (by omega)
    have hread := readMembers_printMember layout level fuel (h member List.mem_cons_self)
      (endsNumber_afterMember layout level (next :: members) rest) hvalue (by omega)
    have hline := length_startLine layout (level + 1)
      (layout.printMember level next (layout.afterMember level members rest))
    have hcomma : (layout.afterMember level (next :: members) rest).length =
        (layout.startLine (level + 1)
          (layout.printMember level next (layout.afterMember level members rest))).length + 1 := by
      rw [Layout.afterMember_cons, List.length_cons]
    have hrest : (layout.printMember level next (layout.afterMember level members rest)).length ≤
        fuel + rest.length := by
      omega
    have htail := ih (fun other hother ↦ h other (List.mem_cons_of_mem member hother)) hnext hrest
    rw [hread, skipSpace_afterMember_cons, readBehind, readMembers_startLine, htail]
    rfl

theorem ReadsBack.of_succ {levels depth : Nat} {value : Value} (hplain : Plain levels value)
    (h : ∀ (level : Nat) (rest : List Char) (fuel : Nat), EndsNumber (rest.map some) →
      (layout.print level value rest).length ≤ fuel + 1 + rest.length →
        readValue depth (fuel + 1) ((layout.print level value rest).map some) =
          (value, some (rest.map some))) : ReadsBack layout depth value := by
  intro level rest fuel hrest hfuel
  have hlength := hplain.length_lt layout level rest
  obtain ⟨fuel, rfl⟩ : ∃ steps, fuel = steps + 1 := Nat.exists_eq_add_one.2 (by omega)
  exact h level rest fuel hrest hfuel

/-- A list is read by its items. -/
theorem readValue_items {levels depth fuel level : Nat} {item : Value} (hplain : Plain levels item)
    (items : List Value) (rest : List Char) :
    readValue depth (fuel + 1) ((layout.print level (.ofItems (item :: items)) rest).map some) =
      let (items, rest) := readItems (depth + 1) fuel
        ((layout.print (level + 1) item (layout.afterItem level items rest)).map some)
      (limitDepth (depth + 1) (.ofItems items), rest) := by
  obtain ⟨c, tail, hprint, hspace, hbracket⟩ :=
    hplain.head_print layout (level + 1) (layout.afterItem level items rest)
  have hopen : skipSpace ((layout.startLine (level + 1) (c :: tail)).map some) =
      some c :: tail.map some := by
    rw [skipSpace_startLine, List.map_cons, skipSpace_cons hspace]
  have hlist : skipSpace (('[' :: layout.startLine (level + 1) (c :: tail)).map some) =
      some '[' :: (layout.startLine (level + 1) (c :: tail)).map some := rfl
  rw [Layout.print_items, hprint, readValue, hlist]
  simp only [hopen]
  split
  · next heq => cases heq; exact absurd rfl hbracket
  · rfl

/-- A map is read by its members. -/
theorem readValue_members (depth fuel level : Nat) (member : String × Value)
    (members : List (String × Value)) (rest : List Char) :
    readValue depth (fuel + 1)
        ((layout.print level (.ofMembers (member :: members)) rest).map some) =
      let (members, rest) := readMembers (depth + 1) fuel
        ((layout.printMember level member (layout.afterMember level members rest)).map some)
      (limitDepth (depth + 1) (.map members), rest) := by
  have hmap (text : List Char) : skipSpace (('{' :: text).map some) = some '{' :: text.map some :=
    rfl
  rw [Layout.print_members, readValue, hmap]
  simp only [skipSpace_startLine, skipSpace_printMember]
  rfl

/-- What the printer writes for a plain value is read back. -/
theorem Plain.readsBack {levels : Nat} {value : Value} (h : Plain levels value) {depth : Nat}
    (hdepth : depth + levels < maxDepth) : ReadsBack layout depth value := by
  induction h generalizing depth with
  | @null levels =>
    have hplain : Plain levels .null := .null
    exact .of_succ layout hplain fun level rest fuel _ _ ↦ readWord_append "null" .null rest
  | @bool levels value =>
    have hplain : Plain levels (.bool value) := .bool value
    refine .of_succ layout hplain fun level rest fuel _ _ ↦ ?_
    cases value with
    | true => exact readWord_append "true" (.bool true) rest
    | false => exact readWord_append "false" (.bool false) rest
  | @int levels value hexact =>
    have hplain : Plain levels (.int value) := .int hexact
    refine .of_succ layout hplain fun level rest fuel hrest _ ↦ ?_
    have hread := readNumber_printInt hexact hrest
    obtain ⟨c, tail, hprint, hstart⟩ := exists_startsInt value rest
    change readValue depth (fuel + 1) ((printInt value rest).map some) = _
    rw [hprint, List.map_cons] at hread ⊢
    rw [readValue_number depth fuel hstart, hread]
  | @string levels text =>
    have hplain : Plain levels (.string text) := .string text
    refine .of_succ layout hplain fun level rest fuel _ hfuel ↦ ?_
    have hlength := length_printString text rest
    change (printString text rest).length ≤ _ at hfuel
    have hname : text.toList.length < fuel + 1 := by omega
    have hread := readString_printString text hname rest
    change readValue depth (fuel + 1) (some '"' :: _) = _
    rw [readValue, skipSpace_cons rfl]
    simp only [hread, stringValue, String.ofList_toList]
  | @list levels items hplain ih =>
    refine .of_succ layout (Plain.list hplain) fun level rest fuel _ hfuel ↦ ?_
    have hlimit (value : Value) : limitDepth (depth + 1) value = value :=
      limitDepth_of_lt (by omega) value
    cases items with
    | nil =>
      exact congrArg (·, some (rest.map some)) (hlimit (.ofItems []))
    | cons item items =>
      have hline := length_startLine layout (level + 1)
        (layout.print (level + 1) item (layout.afterItem level items rest))
      rw [Layout.print_items, List.length_cons] at hfuel
      have hsteps : (layout.print (level + 1) item (layout.afterItem level items rest)).length ≤
          fuel + rest.length := by
        omega
      have hread := readItems_afterItem layout (depth + 1) level
        (fun other hother ↦ ih other hother (by omega))
        (fun other hother ↦ (hplain other hother).length_lt layout) rest hsteps
      rw [readValue_items layout (hplain item List.mem_cons_self), hread]
      exact congrArg (·, some (rest.map some)) (hlimit _)
  | @map levels members hplain ih =>
    refine .of_succ layout (Plain.map hplain) fun level rest fuel _ hfuel ↦ ?_
    have hlimit (value : Value) : limitDepth (depth + 1) value = value :=
      limitDepth_of_lt (by omega) value
    cases members with
    | nil =>
      exact congrArg (·, some (rest.map some)) (hlimit (.ofMembers []))
    | cons member members =>
      have hline := length_startLine layout (level + 1)
        (layout.printMember level member (layout.afterMember level members rest))
      rw [Layout.print_members, List.length_cons] at hfuel
      have hsteps :
          (layout.printMember level member (layout.afterMember level members rest)).length ≤
            fuel + rest.length := by
        omega
      have hread := readMembers_afterMember layout (depth + 1) level
        (fun other hother ↦ ih other hother (by omega))
        (fun other hother ↦ (hplain other hother).length_lt layout) rest hsteps
      rw [readValue_members, hread]
      exact congrArg (·, some (rest.map some)) (hlimit _)

end Layouts

/-- The text of a plain value is a document that holds the value. -/
theorem readDocument_write (layout : Layout) {levels : Nat} {value : Value} (h : Plain levels value)
    (hlevels : levels < maxDepth) :
    readDocument (symbolsOfText (layout.write value)) = (value, true) := by
  have hback : ReadsBack layout 0 value := h.readsBack layout (by omega)
  have hread := hback 0 [] (2 * ((layout.print 0 value []).length + 1)) nofun
    (by rw [List.length_nil]; omega)
  rw [readDocument, symbolsOfText, Layout.write, String.toList_ofList, List.length_map, hread]
  rfl

end CommitCoordinator.Json
