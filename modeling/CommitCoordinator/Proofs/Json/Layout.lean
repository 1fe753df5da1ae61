import CommitCoordinator.Json.Reader

/-!
# Layouts of JSON documents

The compact and the pretty form of a value differ in the blanks between its parts only. A layout
says which blanks these are, and one printer that takes them from a layout gives both forms.
-/

namespace CommitCoordinator.Json

open Data

/-- The blanks between the parts of lists and maps. -/
structure Layout where
  /-- What stands in front of the items of a level. -/
  line : Nat → List Char
  /-- What stands behind the colon of a member. -/
  gap : List Char
  blank_line (level : Nat) : ∀ c ∈ line level, isSpace (some c) = true
  blank_gap : ∀ c ∈ gap, isSpace (some c) = true

namespace Layout

mutual

/-- The form of a value at a level before further text. -/
def print (layout : Layout) (level : Nat) : Value → List Char → List Char
  | .list _ [], rest => '[' :: ']' :: rest
  | .list _ (item :: items), rest =>
    '[' :: (layout.line (level + 1) ++ layout.print (level + 1) item
      (layout.printItems level items (layout.line level ++ ']' :: rest)))
  | .map [], rest => '{' :: '}' :: rest
  | .map ((key, value) :: members), rest =>
    '{' :: (layout.line (level + 1) ++ layout.print (level + 1) key (':' :: (layout.gap ++
      layout.print (level + 1) value
        (layout.printMembers level members (layout.line level ++ '}' :: rest)))))
  | value, rest => printScalar value rest

def printItems (layout : Layout) (level : Nat) : List Value → List Char → List Char
  | [], rest => rest
  | item :: items, rest =>
    ',' :: (layout.line (level + 1) ++
      layout.print (level + 1) item (layout.printItems level items rest))

def printMembers (layout : Layout) (level : Nat) : List (Value × Value) → List Char → List Char
  | [], rest => rest
  | (key, value) :: members, rest =>
    ',' :: (layout.line (level + 1) ++ layout.print (level + 1) key (':' :: (layout.gap ++
      layout.print (level + 1) value (layout.printMembers level members rest))))

end

/-- No blanks at all. -/
def dense : Layout where
  line _ := []
  gap := []
  blank_line _ := nofun
  blank_gap := nofun

/-- A line for each item, and a blank behind each colon. -/
def lined : Layout where
  line level := newLine level []
  gap := [' ']
  blank_line level c h := by
    rw [newLine, List.append_nil, List.mem_cons] at h
    rcases h with rfl | h
    · rfl
    · rw [List.eq_of_mem_replicate h]
      rfl
  blank_gap c h := by
    rw [List.mem_singleton.1 h]
    rfl

theorem line_lined_append (level : Nat) (rest : List Char) :
    lined.line level ++ rest = newLine level rest := by
  change newLine level [] ++ rest = _
  rw [newLine, newLine, List.append_nil, List.cons_append]

mutual

theorem print_dense (level : Nat) : ∀ (value : Value) (rest : List Char),
    dense.print level value rest = Json.print value rest
  | .list _ [], rest => by rw [Layout.print, Json.print]
  | .list _ (item :: items), rest => by
    rw [Layout.print, Json.print, print_dense, printItems_dense]
    rfl
  | .map [], rest => by rw [Layout.print, Json.print]
  | .map ((key, value) :: members), rest => by
    rw [Layout.print, Json.print, print_dense, print_dense, printMembers_dense]
    rfl
  | .null, rest | .bool _, rest | .int _, rest | .float, rest | .string _, rest
  | .loose _ _ _, rest | .tagged _, rest | .unreadable, rest | .broken, rest => by
    rw [Layout.print, Json.print] <;> nofun

theorem printItems_dense (level : Nat) : ∀ (items : List Value) (rest : List Char),
    dense.printItems level items rest = Json.printItems items rest
  | [], rest => by rw [Layout.printItems, Json.printItems]
  | item :: items, rest => by
    rw [Layout.printItems, Json.printItems, print_dense, printItems_dense]
    rfl

theorem printMembers_dense (level : Nat) : ∀ (members : List (Value × Value)) (rest : List Char),
    dense.printMembers level members rest = Json.printMembers members rest
  | [], rest => by rw [Layout.printMembers, Json.printMembers]
  | (key, value) :: members, rest => by
    rw [Layout.printMembers, Json.printMembers, print_dense, print_dense, printMembers_dense]
    rfl

end

mutual

theorem print_lined (level : Nat) : ∀ (value : Value) (rest : List Char),
    lined.print level value rest = printPretty level value rest
  | .list _ [], rest => by rw [Layout.print, printPretty]
  | .list _ (item :: items), rest => by
    rw [Layout.print, printPretty, print_lined, printItems_lined, line_lined_append,
      line_lined_append]
  | .map [], rest => by rw [Layout.print, printPretty]
  | .map ((key, value) :: members), rest => by
    rw [Layout.print, printPretty, print_lined, print_lined, printMembers_lined,
      line_lined_append, line_lined_append]
    rfl
  | .null, rest | .bool _, rest | .int _, rest | .float, rest | .string _, rest
  | .loose _ _ _, rest | .tagged _, rest | .unreadable, rest | .broken, rest => by
    rw [Layout.print, printPretty] <;> nofun

theorem printItems_lined (level : Nat) : ∀ (items : List Value) (rest : List Char),
    lined.printItems level items rest = printPrettyItems level items rest
  | [], rest => by rw [Layout.printItems, printPrettyItems]
  | item :: items, rest => by
    rw [Layout.printItems, printPrettyItems, print_lined, printItems_lined, line_lined_append]

theorem printMembers_lined (level : Nat) : ∀ (members : List (Value × Value)) (rest : List Char),
    lined.printMembers level members rest = printPrettyMembers level members rest
  | [], rest => by rw [Layout.printMembers, printPrettyMembers]
  | (key, value) :: members, rest => by
    rw [Layout.printMembers, printPrettyMembers, print_lined, print_lined, printMembers_lined,
      line_lined_append]
    rfl

end

/-- The text of a value. -/
def write (layout : Layout) (value : Value) : String :=
  String.ofList (layout.print 0 value [])

theorem write_dense (value : Value) : dense.write value = compact value := by
  rw [write, print_dense, compact]

theorem write_lined (value : Value) : lined.write value = pretty value := by
  rw [write, print_lined, pretty]

end Layout

end CommitCoordinator.Json
