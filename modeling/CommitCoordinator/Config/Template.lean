/-!
# Variables in text

A text can name variables of the environment: `$NAME` and `${NAME}` stand for the value of
a variable, `${NAME:-other}` and `${NAME-other}` fall back on other text, and `$$` stands for
a dollar sign. A dollar sign anywhere else stands for itself. Values are inserted as they are and
are not expanded again.
-/

namespace CommitCoordinator.Template

/-- The values of the variables that are set. -/
abbrev Environment := String → Option String

/-- What stands in for a variable. -/
structure Fallback where
  text : List Char
  /-- Whether the fallback also replaces an empty value. -/
  replacesEmpty : Bool
deriving DecidableEq, Repr

/-- A piece of a template: a character that stands for itself, the escape of the dollar sign, or
a variable without or within braces. -/
inductive Segment where
  | literal (c : Char)
  | dollar
  | bare (name : List Char)
  | braced (name : List Char) (fallback : Option Fallback)
deriving DecidableEq, Repr

/-- Whether a name of a variable may begin with the character. -/
def isNameStart (c : Char) : Bool :=
  c.isAlpha || c = '_'

/-- Whether a name of a variable may go on with the character. -/
def isNamePart (c : Char) : Bool :=
  c.isAlphanum || c = '_'

/-! ## Written form -/

def Fallback.chars (fallback : Fallback) : List Char :=
  (if fallback.replacesEmpty then [':', '-'] else ['-']) ++ fallback.text

/-- The characters that a segment is written with. -/
def Segment.chars : Segment → List Char
  | .literal c => [c]
  | .dollar => ['$', '$']
  | .bare name => '$' :: name
  | .braced name none => '$' :: '{' :: name ++ ['}']
  | .braced name (some fallback) => '$' :: '{' :: name ++ fallback.chars ++ ['}']

/-! ## Reading -/

/-- The name at the front of text, empty if there is none, and the text after it. -/
def splitName : List Char → List Char × List Char
  | c :: rest =>
    if isNameStart c then (c :: rest.takeWhile isNamePart, rest.dropWhile isNamePart)
    else ([], c :: rest)
  | [] => ([], [])

/-- The text before the first closing brace, and the text after that. -/
def splitBrace : List Char → Option (List Char × List Char)
  | [] => none
  | c :: rest =>
    if c = '}' then some ([], rest)
    else (splitBrace rest).map fun (inner, after) ↦ (c :: inner, after)

/-- The segment after an opening brace. -/
def braced? (text : List Char) : Option (Segment × List Char) :=
  match splitName text with
  | ([], _) => none
  | (name, '}' :: rest) => some (.braced name none, rest)
  | (name, ':' :: '-' :: rest) =>
    (splitBrace rest).map fun (inner, after) ↦ (.braced name (some ⟨inner, true⟩), after)
  | (name, '-' :: rest) =>
    (splitBrace rest).map fun (inner, after) ↦ (.braced name (some ⟨inner, false⟩), after)
  | _ => none

/-- The segment after a dollar sign, absent if the sign stands for itself. -/
def afterDollar? : List Char → Option (Segment × List Char)
  | '$' :: rest => some (.dollar, rest)
  | '{' :: rest => braced? rest
  | text =>
    match splitName text with
    | ([], _) => none
    | (name, rest) => some (.bare name, rest)

theorem splitName_length (text : List Char) : (splitName text).2.length ≤ text.length := by
  unfold splitName
  split
  · split
    · have := (List.dropWhile_sublist isNamePart (l := ‹List Char›)).length_le
      simp only [List.length_cons]
      omega
    · simp
  · simp

theorem splitBrace_length {text inner after : List Char}
    (h : splitBrace text = some (inner, after)) : after.length < text.length := by
  induction text generalizing inner with
  | nil => simp [splitBrace] at h
  | cons c rest ih =>
    rw [splitBrace] at h
    split at h
    · simp only [Option.some.injEq, Prod.mk.injEq] at h
      simp [← h.2]
    · obtain ⟨⟨inner', after'⟩, hr, he⟩ := Option.map_eq_some_iff.mp h
      simp only [Prod.mk.injEq] at he
      have := @ih inner' (by rw [hr, he.2])
      simp only [List.length_cons]
      omega

theorem braced?_length {text rest : List Char} {segment : Segment}
    (h : braced? text = some (segment, rest)) : rest.length ≤ text.length := by
  have hn := splitName_length text
  unfold braced? at h
  split at h
  · simp at h
  · next hs =>
    simp only [Option.some.injEq, Prod.mk.injEq] at h
    rw [hs] at hn
    simp only [List.length_cons, h.2] at hn
    omega
  · next hs =>
    rw [hs] at hn
    obtain ⟨⟨inner, after⟩, hb, he⟩ := Option.map_eq_some_iff.mp h
    have := splitBrace_length hb
    simp only [Prod.mk.injEq] at he
    simp only [List.length_cons] at hn
    rw [← he.2]
    omega
  · next hs =>
    rw [hs] at hn
    obtain ⟨⟨inner, after⟩, hb, he⟩ := Option.map_eq_some_iff.mp h
    have := splitBrace_length hb
    simp only [Prod.mk.injEq] at he
    simp only [List.length_cons] at hn
    rw [← he.2]
    omega
  · simp at h

theorem afterDollar?_length {text rest : List Char} {segment : Segment}
    (h : afterDollar? text = some (segment, rest)) : rest.length ≤ text.length := by
  unfold afterDollar? at h
  split at h
  · simp only [Option.some.injEq, Prod.mk.injEq] at h
    simp [← h.2]
  · have := braced?_length h
    simp only [List.length_cons]
    omega
  · have hn := splitName_length text
    split at h
    · simp at h
    · next hs =>
      simp only [Option.some.injEq, Prod.mk.injEq] at h
      rw [hs] at hn
      simpa [h.2] using hn

/-- The segments of text. -/
def segments : List Char → List Segment
  | [] => []
  | c :: rest =>
    if c = '$' then
      match h : afterDollar? rest with
      | some (segment, after) =>
        have := afterDollar?_length h
        segment :: segments after
      | none => .literal c :: segments rest
    else .literal c :: segments rest
termination_by text => text.length
decreasing_by all_goals simp only [List.length_cons]; omega

/-! ## Expanding -/

/-- What a segment stands for; a variable that is not set and has no fallback stands for nothing
and is named. -/
def Segment.expand (env : Environment) : Segment → List Char × List String
  | .literal c => ([c], [])
  | .dollar => (['$'], [])
  | .bare name => expandName name
  | .braced name none => expandName name
  | .braced name (some fallback) =>
    match env (String.ofList name) with
    | some value =>
      if fallback.replacesEmpty && value.isEmpty then (fallback.text, []) else (value.toList, [])
    | none => (fallback.text, [])
where
  /-- The value of a variable that has to be set. -/
  expandName (name : List Char) : List Char × List String :=
    match env (String.ofList name) with
    | some value => (value.toList, [])
    | none => ([], [String.ofList name])

/-- Text with its variables expanded, and the variables that were not set. -/
structure Expansion where
  text : String
  /-- One name for each place that needs it. -/
  unset : List String
deriving DecidableEq, Repr

def expand (env : Environment) (text : String) : Expansion :=
  let parts := (segments text.toList).map (·.expand env)
  ⟨String.ofList (parts.flatMap Prod.fst), parts.flatMap Prod.snd⟩

/-- The complaint about a variable that is not set. -/
def unsetMessage (name : String) : String :=
  s!"environment variable '{name}' is not set"

end CommitCoordinator.Template
