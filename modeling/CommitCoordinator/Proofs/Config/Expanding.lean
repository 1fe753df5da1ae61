import CommitCoordinator.Config.Template
import Mathlib.Data.List.Forall2
import Mathlib.Data.List.TakeWhile
import Mathlib.Logic.ExistsUnique

/-!
# Expanding templates

A template is written as a sequence of segments: characters that stand for themselves, escapes and
variables. Every text is written as exactly one such sequence in which each segment is followed by
text that does not change its meaning, and expanding the text gives what the segments stand for,
one after the other and in one pass.
-/

namespace CommitCoordinator.Template

/-! ## The grammar -/

/-- An identifier: a letter or an underscore, and then letters, digits and underscores. -/
def IsName (name : List Char) : Prop :=
  ∃ first rest, name = first :: rest ∧ isNameStart first = true ∧ ∀ c ∈ rest, isNamePart c = true

/-- Whether text does not go on with a character of a name. -/
def EndsName (after : List Char) : Prop :=
  ∀ c ∈ after.head?, isNamePart c = false

/-- The forms that begin with a dollar sign, in front of the text after them. -/
inductive IsForm : Segment → List Char → Prop where
  | dollar (after : List Char) : IsForm .dollar after
  | bare {name after : List Char} (hname : IsName name) (hafter : EndsName after) :
      IsForm (.bare name) after
  | braced {name : List Char} (hname : IsName name) (after : List Char) :
      IsForm (.braced name none) after
  | fallback {name : List Char} {fallback : Fallback} (hname : IsName name)
      (hbrace : '}' ∉ fallback.text) (after : List Char) :
      IsForm (.braced name (some fallback)) after

/-- Whether no form begins with a dollar sign in front of text. -/
def IsLone (after : List Char) : Prop :=
  ∀ form rest, IsForm form rest → '$' :: after ≠ form.chars ++ rest

/-- Whether a segment can be read in front of text. -/
inductive Fits : Segment → List Char → Prop where
  | form {form : Segment} {after : List Char} (h : IsForm form after) : Fits form after
  | literal {c : Char} (h : c ≠ '$') (after : List Char) : Fits (.literal c) after
  | lone {after : List Char} (h : IsLone after) : Fits (.literal '$') after

/-- The text that segments are written as. -/
def written (parts : List Segment) : List Char :=
  parts.flatMap Segment.chars

/-- Whether each segment fits in front of those after it. -/
def Proper : List Segment → Prop
  | [] => True
  | part :: rest => Fits part (written rest) ∧ Proper rest

/-! ## Names and braces -/

theorem dropWhile_of_endsName {after : List Char} (h : EndsName after) :
    after.dropWhile isNamePart = after ∧ after.takeWhile isNamePart = [] := by
  cases after with
  | nil => exact ⟨rfl, rfl⟩
  | cons c rest =>
    have hc : isNamePart c = false := h c rfl
    rw [List.dropWhile_cons_of_neg (by simp [hc]), List.takeWhile_cons_of_neg (by simp [hc])]
    exact ⟨rfl, rfl⟩

theorem endsName_dropWhile (text : List Char) : EndsName (text.dropWhile isNamePart) := by
  intro c hc
  have hnot := List.head?_dropWhile_not isNamePart text
  rw [Option.mem_def.1 hc] at hnot
  exact hnot

theorem splitName_append {name after : List Char} (hname : IsName name) (hafter : EndsName after) :
    splitName (name ++ after) = (name, after) := by
  obtain ⟨first, rest, rfl, hfirst, hrest⟩ := hname
  obtain ⟨hdrop, htake⟩ := dropWhile_of_endsName hafter
  rw [List.cons_append, splitName, if_pos hfirst, List.takeWhile_append_of_pos hrest,
    List.dropWhile_append_of_pos hrest, hdrop, htake, List.append_nil]

/-- A name at the front of text is the longest one. -/
theorem splitName_eq_iff {text name after : List Char} (hne : name ≠ []) :
    splitName text = (name, after) ↔ IsName name ∧ EndsName after ∧ text = name ++ after := by
  constructor
  · intro h
    cases text with
    | nil =>
      cases h
      exact absurd rfl hne
    | cons c rest =>
      rw [splitName] at h
      split at h
      · next hstart =>
        cases h
        refine ⟨⟨c, _, rfl, hstart, fun d hd ↦ List.mem_takeWhile_imp hd⟩,
          endsName_dropWhile rest, ?_⟩
        rw [List.cons_append, List.takeWhile_append_dropWhile]
      · cases h
        exact absurd rfl hne
  · rintro ⟨hname, hafter, rfl⟩
    exact splitName_append hname hafter

theorem splitBrace_eq_iff {text inner after : List Char} :
    splitBrace text = some (inner, after) ↔ '}' ∉ inner ∧ text = inner ++ '}' :: after := by
  induction text generalizing inner with
  | nil => simp [splitBrace]
  | cons c rest ih =>
    rw [splitBrace]
    split
    · next hbrace =>
      subst hbrace
      cases inner with
      | nil => simp
      | cons d inner =>
        constructor
        · intro h
          cases h
        · rintro ⟨hnone, htext⟩
          obtain ⟨rfl, -⟩ := List.cons.inj htext
          exact absurd List.mem_cons_self hnone
    · next hother =>
      rw [Option.map_eq_some_iff]
      constructor
      · rintro ⟨⟨inner', after'⟩, hrest, ⟨⟩⟩
        obtain ⟨hnone, rfl⟩ := ih.1 hrest
        exact ⟨by simp [Ne.symm hother, hnone], rfl⟩
      · rintro ⟨hnone, htext⟩
        cases inner with
        | nil => exact absurd (List.cons.inj htext).1 hother
        | cons d inner =>
          obtain ⟨rfl, rfl⟩ := List.cons.inj htext
          exact ⟨(inner, after), ih.2 ⟨fun hmem ↦ hnone (List.mem_cons_of_mem _ hmem), rfl⟩, rfl⟩

/-! ## Forms -/

/-- The segment after a name within braces. -/
def afterName? (name : List Char) : List Char → Option (Segment × List Char)
  | '}' :: rest => some (.braced name none, rest)
  | ':' :: '-' :: rest =>
    (splitBrace rest).map fun (inner, after) ↦ (.braced name (some ⟨inner, true⟩), after)
  | '-' :: rest =>
    (splitBrace rest).map fun (inner, after) ↦ (.braced name (some ⟨inner, false⟩), after)
  | _ => none

theorem braced?_append {name after : List Char} (hname : IsName name) (hafter : EndsName after) :
    braced? (name ++ after) = afterName? name after := by
  rw [braced?, splitName_append hname hafter]
  obtain ⟨first, more, rfl, -⟩ := hname
  unfold afterName?
  split <;> simp_all

theorem endsName_cons {c : Char} {rest : List Char} :
    EndsName (c :: rest) ↔ isNamePart c = false := by
  simp [EndsName]

theorem splitName_cases (text : List Char) :
    splitName text = ([], text) ∨
      ∃ name after, IsName name ∧ EndsName after ∧ text = name ++ after := by
  cases text with
  | nil => exact .inl rfl
  | cons c rest =>
    by_cases hstart : isNameStart c = true
    · refine .inr ⟨c :: rest.takeWhile isNamePart, rest.dropWhile isNamePart, ?_⟩
      refine (splitName_eq_iff (List.cons_ne_nil _ _)).1 ?_
      rw [splitName, if_pos hstart]
    · left
      rw [splitName, if_neg hstart]

/-- A segment is read after an opening brace exactly if its form stands there. -/
theorem braced?_eq_some_iff {text after : List Char} {segment : Segment} :
    braced? text = some (segment, after) ↔
      IsForm segment after ∧ '$' :: '{' :: text = segment.chars ++ after := by
  constructor
  · intro h
    obtain hnone | ⟨name, tail, hname, htail, rfl⟩ := splitName_cases text
    · rw [braced?, hnone] at h
      cases h
    · rw [braced?_append hname htail] at h
      unfold afterName? at h
      split at h
      · cases h
        exact ⟨.braced hname _, by simp [Segment.chars]⟩
      · obtain ⟨⟨inner, rest⟩, hsplit, ⟨⟩⟩ := Option.map_eq_some_iff.1 h
        obtain ⟨hbrace, rfl⟩ := splitBrace_eq_iff.1 hsplit
        exact ⟨.fallback hname hbrace _, by simp [Segment.chars, Fallback.chars]⟩
      · obtain ⟨⟨inner, rest⟩, hsplit, ⟨⟩⟩ := Option.map_eq_some_iff.1 h
        obtain ⟨hbrace, rfl⟩ := splitBrace_eq_iff.1 hsplit
        exact ⟨.fallback hname hbrace _, by simp [Segment.chars, Fallback.chars]⟩
      · cases h
  · rintro ⟨hform, htext⟩
    cases hform with
    | dollar => simp [Segment.chars] at htext
    | bare hname hafter =>
      obtain ⟨first, rest, rfl, hfirst, -⟩ := hname
      obtain ⟨rfl, -⟩ := List.cons.inj (List.cons.inj htext).2
      exact absurd hfirst (by decide)
    | @braced name hname after =>
      obtain rfl : text = name ++ '}' :: after := by simpa [Segment.chars] using htext
      rw [braced?_append hname (endsName_cons.2 rfl), afterName?]
    | @fallback name fallback hname hbrace after =>
      obtain ⟨inner, replacesEmpty⟩ := fallback
      have hsplit : splitBrace (inner ++ '}' :: after) = some (inner, after) :=
        splitBrace_eq_iff.2 ⟨hbrace, rfl⟩
      cases replacesEmpty with
      | true =>
        obtain rfl : text = name ++ ':' :: '-' :: (inner ++ '}' :: after) := by
          simpa [Segment.chars, Fallback.chars] using htext
        rw [braced?_append hname (endsName_cons.2 rfl), afterName?, hsplit]
        rfl
      | false =>
        obtain rfl : text = name ++ '-' :: (inner ++ '}' :: after) := by
          simpa [Segment.chars, Fallback.chars] using htext
        rw [braced?_append hname (endsName_cons.2 rfl), afterName?, hsplit]
        rfl

/-- A segment is read after a dollar sign exactly if its form stands there. -/
theorem afterDollar?_eq_some_iff {text after : List Char} {segment : Segment} :
    afterDollar? text = some (segment, after) ↔
      IsForm segment after ∧ '$' :: text = segment.chars ++ after := by
  unfold afterDollar?
  split
  · next rest =>
    constructor
    · rintro ⟨⟩
      exact ⟨.dollar _, rfl⟩
    · rintro ⟨hform, htext⟩
      cases hform with
      | dollar =>
        obtain rfl : rest = after := by simpa [Segment.chars] using htext
        rfl
      | bare hname hafter =>
        obtain ⟨first, rest, rfl, hfirst, -⟩ := hname
        obtain ⟨rfl, -⟩ := List.cons.inj (List.cons.inj htext).2
        exact absurd hfirst (by decide)
      | braced => simp [Segment.chars] at htext
      | fallback => simp [Segment.chars] at htext
  · exact braced?_eq_some_iff
  · next hdollar hbrace =>
    constructor
    · intro h
      obtain hnone | ⟨name, tail, hname, htail, rfl⟩ := splitName_cases text
      · rw [hnone] at h
        cases h
      · rw [splitName_append hname htail] at h
        obtain ⟨first, more, rfl, -⟩ := id hname
        cases h
        exact ⟨.bare hname htail, rfl⟩
    · rintro ⟨hform, htext⟩
      cases hform with
      | dollar => exact absurd (List.cons.inj htext).2 (hdollar _)
      | @bare name _ hname hafter =>
        obtain rfl : text = name ++ after := (List.cons.inj htext).2
        rw [splitName_append hname hafter]
        obtain ⟨first, more, rfl, -⟩ := hname
        rfl
      | braced =>
        refine absurd (List.cons.inj htext).2 (hbrace _)
      | fallback =>
        refine absurd (List.cons.inj htext).2 (hbrace _)

theorem isLone_iff {after : List Char} : IsLone after ↔ afterDollar? after = none := by
  constructor
  · intro h
    cases hread : afterDollar? after with
    | none => rfl
    | some read =>
      obtain ⟨hform, htext⟩ := afterDollar?_eq_some_iff.1 hread
      exact absurd htext (h _ _ hform)
  · intro h form rest hform htext
    rw [afterDollar?_eq_some_iff.2 ⟨hform, htext⟩] at h
    cases h

/-! ## Segments of text -/

theorem segments_dollar {text : List Char} {segment : Segment} {after : List Char}
    (h : afterDollar? text = some (segment, after)) :
    segments ('$' :: text) = segment :: segments after := by
  rw [segments, if_pos rfl]
  split
  · next hread => cases h.symm.trans hread; rfl
  · next hread => cases h.symm.trans hread

theorem segments_literal {c : Char} {rest : List Char} (h : c = '$' → afterDollar? rest = none) :
    segments (c :: rest) = .literal c :: segments rest := by
  rw [segments]
  split
  · next hdollar =>
    subst hdollar
    split
    · next hread => cases (h rfl).symm.trans hread
    · rfl
  · rfl

@[simp] theorem written_cons (part : Segment) (rest : List Segment) :
    written (part :: rest) = part.chars ++ written rest := rfl

/-- A form is written with a dollar sign in front. -/
theorem IsForm.chars_eq_cons {form : Segment} {after : List Char} (h : IsForm form after) :
    ∃ rest, form.chars = '$' :: rest := by
  cases h <;> exact ⟨_, rfl⟩

/-- Segments that fit are read back from what they are written as. -/
theorem segments_written {parts : List Segment} (h : Proper parts) :
    segments (written parts) = parts := by
  induction parts with
  | nil => rw [written, List.flatMap_nil, segments]
  | cons part rest ih =>
    obtain ⟨hfits, hrest⟩ := h
    rw [written_cons]
    cases hfits with
    | form hform =>
      obtain ⟨text, htext⟩ := hform.chars_eq_cons
      have hread : afterDollar? (text ++ written rest) = some (part, written rest) :=
        afterDollar?_eq_some_iff.2 ⟨hform, by rw [htext, List.cons_append]⟩
      rw [htext, List.cons_append, segments_dollar hread, ih hrest]
    | literal hother =>
      exact (segments_literal fun hdollar ↦ absurd hdollar hother).trans
        (congrArg (List.cons _) (ih hrest))
    | lone hlone =>
      exact (segments_literal fun _ ↦ isLone_iff.1 hlone).trans
        (congrArg (List.cons _) (ih hrest))

/-- Text is written as its segments, and these fit. -/
theorem proper_segments (text : List Char) :
    Proper (segments text) ∧ written (segments text) = text := by
  induction text using segments.induct with
  | case1 => rw [segments]; exact ⟨trivial, rfl⟩
  | case2 rest segment after hread _ ih =>
    obtain ⟨hproper, hwritten⟩ := ih
    obtain ⟨hform, htext⟩ := afterDollar?_eq_some_iff.1 hread
    rw [segments_dollar hread, written_cons, hwritten]
    exact ⟨⟨.form (hwritten.symm ▸ hform), hproper⟩, htext.symm⟩
  | case3 rest hread ih =>
    obtain ⟨hproper, hwritten⟩ := ih
    rw [segments_literal fun _ ↦ hread, written_cons, hwritten]
    exact ⟨⟨.lone (hwritten.symm ▸ isLone_iff.2 hread), hproper⟩, rfl⟩
  | case4 c rest hother ih =>
    obtain ⟨hproper, hwritten⟩ := ih
    rw [segments_literal fun hdollar ↦ absurd hdollar hother, written_cons, hwritten]
    exact ⟨⟨.literal hother _, hproper⟩, rfl⟩

/-- Text has one sequence of segments that fit. -/
theorem segments_eq_iff {text : List Char} {parts : List Segment} :
    segments text = parts ↔ Proper parts ∧ written parts = text := by
  constructor
  · rintro rfl
    exact proper_segments text
  · rintro ⟨hproper, rfl⟩
    exact segments_written hproper

/-! ## What segments stand for -/

/-- The variable that a segment names, with what may stand in for its value. -/
def Segment.variable? : Segment → Option (List Char × Option Fallback)
  | .bare name => some (name, none)
  | .braced name fallback => some (name, fallback)
  | _ => none

/-- Whether a fallback stands in for a value, absent if the variable is unset. -/
def Fallback.Applies (fallback : Fallback) (value : Option String) : Prop :=
  value = none ∨ fallback.replacesEmpty = true ∧ value = some ""

/-- What a segment stands for, with the variable that it misses. -/
inductive Stands (env : Environment) : Segment → List Char × List String → Prop where
  | literal (c : Char) : Stands env (.literal c) ([c], [])
  | dollar : Stands env .dollar (['$'], [])
  | value {segment : Segment} {name : List Char} {fallback : Option Fallback} {value : String}
      (hvariable : segment.variable? = some (name, fallback))
      (hset : env (String.ofList name) = some value)
      (hkept : ∀ f ∈ fallback, ¬ f.Applies (some value)) :
      Stands env segment (value.toList, [])
  | fallback {segment : Segment} {name : List Char} {fallback : Fallback}
      (hvariable : segment.variable? = some (name, some fallback))
      (happlies : fallback.Applies (env (String.ofList name))) :
      Stands env segment (fallback.text, [])
  | missing {segment : Segment} {name : List Char}
      (hvariable : segment.variable? = some (name, none))
      (hunset : env (String.ofList name) = none) :
      Stands env segment ([], [String.ofList name])

theorem stands_expandName (env : Environment) {segment : Segment} {name : List Char}
    (h : segment.variable? = some (name, none)) :
    Stands env segment (Segment.expand.expandName env name) := by
  unfold Segment.expand.expandName
  split
  · next value hset => exact .value h hset nofun
  · next hunset => exact .missing h hunset

/-- Expanding a segment gives what it stands for. -/
theorem stands_expand (env : Environment) (segment : Segment) :
    Stands env segment (segment.expand env) := by
  cases segment with
  | literal c => exact .literal c
  | dollar => exact .dollar
  | bare name => exact stands_expandName env rfl
  | braced name fallback =>
    cases fallback with
    | none => exact stands_expandName env rfl
    | some fallback =>
      rw [Segment.expand]
      split
      · next value hset =>
        split
        · next hempty =>
          obtain ⟨hreplaces, hvalue⟩ := Bool.and_eq_true_iff.1 hempty
          refine .fallback rfl (.inr ⟨hreplaces, ?_⟩)
          rw [hset, String.isEmpty_iff.1 hvalue]
        · next hkept =>
          refine .value rfl hset fun f hf ↦ ?_
          obtain rfl : fallback = f := Option.some.inj hf
          rintro (hnone | ⟨hreplaces, hvalue⟩)
          · cases hnone
          · obtain rfl : value = "" := Option.some.inj hvalue
            exact hkept (by rw [hreplaces]; rfl)
      · next hunset => exact .fallback rfl (.inl hunset)

theorem Stands.eq_expand {env : Environment} {segment : Segment} {part : List Char × List String}
    (h : Stands env segment part) : part = segment.expand env := by
  cases h with
  | literal c => rfl
  | dollar => rfl
  | @value segment name fallback value hvariable hset hkept =>
    cases segment with
    | literal c => cases hvariable
    | dollar => cases hvariable
    | bare name => cases hvariable; simp [Segment.expand, Segment.expand.expandName, hset]
    | braced name fallback =>
      cases hvariable
      cases fallback with
      | none => simp [Segment.expand, Segment.expand.expandName, hset]
      | some fallback =>
        have hempty : (fallback.replacesEmpty && value.isEmpty) = false := by
          by_contra hboth
          obtain ⟨hreplaces, hvalue⟩ := Bool.and_eq_true_iff.1 (Bool.not_eq_false _ ▸ hboth)
          exact hkept fallback rfl (.inr ⟨hreplaces, congrArg some (String.isEmpty_iff.1 hvalue)⟩)
        simp [Segment.expand, hset, hempty]
  | @fallback segment name fallback hvariable happlies =>
    cases segment with
    | braced name other =>
      cases hvariable
      rcases happlies with hunset | ⟨hreplaces, hvalue⟩
      · simp [Segment.expand, hunset]
      · simp [Segment.expand, hvalue, hreplaces]
    | _ => cases hvariable
  | @missing segment name hvariable hunset =>
    cases segment with
    | literal c => cases hvariable
    | dollar => cases hvariable
    | bare name => cases hvariable; simp [Segment.expand, Segment.expand.expandName, hunset]
    | braced name fallback =>
      cases hvariable; simp [Segment.expand, Segment.expand.expandName, hunset]

/-- Each segment stands for one thing. -/
theorem stands_iff {env : Environment} {segment : Segment} {part : List Char × List String} :
    Stands env segment part ↔ part = segment.expand env :=
  ⟨Stands.eq_expand, fun h ↦ h ▸ stands_expand env segment⟩

theorem forall₂_stands_iff {env : Environment} {parts : List Segment}
    {values : List (List Char × List String)} :
    List.Forall₂ (Stands env) parts values ↔ values = parts.map (·.expand env) := by
  have hsame : Stands env = fun segment part ↦ segment.expand env = part := by
    funext segment part
    exact propext (stands_iff.trans eq_comm)
  rw [hsame, ← List.forall₂_map_left_iff, List.forall₂_eq_eq_eq, eq_comm]

/-! ## Texts -/

/-- Text with each dollar sign written twice. -/
def doubled (text : List Char) : List Char :=
  text.flatMap fun c ↦ if c = '$' then ['$', '$'] else [c]

/-- The segments of text with each dollar sign written twice. -/
def escaped (text : List Char) : List Segment :=
  text.map fun c ↦ if c = '$' then .dollar else .literal c

theorem proper_escaped (text : List Char) : Proper (escaped text) := by
  induction text with
  | nil => trivial
  | cons c rest ih =>
    refine ⟨?_, ih⟩
    dsimp only
    split
    · exact .form (.dollar _)
    · next hother => exact .literal hother _

theorem written_escaped (text : List Char) : written (escaped text) = doubled text := by
  rw [written, escaped, doubled, List.flatMap_map]
  congr 1
  funext c
  split <;> rfl

theorem expand_escaped (env : Environment) (text : List Char) :
    (escaped text).map (·.expand env) = text.map fun c ↦ ([c], []) := by
  rw [escaped, List.map_map]
  congr 1
  funext c
  dsimp only [Function.comp]
  split
  · next hdollar => rw [hdollar]; rfl
  · rfl

/-- Expanding text reads it as the one sequence of segments that it is written as, and puts what
they stand for in their place: the values and fallbacks are not read again, and each variable that
is unset and has no fallback is named once. Doubling the dollar signs of any text keeps it from
being expanded. -/
theorem expand_written_segments (env : Environment) {parts : List Segment}
    (hproper : Proper parts) :
    (∃ values, (∀ others, List.Forall₂ (Stands env) parts others ↔ others = values) ∧
      expand env (String.ofList (written parts)) =
        ⟨String.ofList (values.flatMap Prod.fst), values.flatMap Prod.snd⟩) ∧
    (∀ text, ∃! segments, Proper segments ∧ written segments = text) ∧
    ∀ text : String, expand env (String.ofList (doubled text.toList)) = ⟨text, []⟩ := by
  have hexpand {parts : List Segment} (hproper : Proper parts) :
      expand env (String.ofList (written parts)) =
        ⟨String.ofList ((parts.map (·.expand env)).flatMap Prod.fst),
          (parts.map (·.expand env)).flatMap Prod.snd⟩ := by
    rw [expand, String.toList_ofList, segments_written hproper]
  refine ⟨⟨_, fun others ↦ forall₂_stands_iff, hexpand hproper⟩, fun text ↦ ?_, fun text ↦ ?_⟩
  · exact ⟨segments text, proper_segments text, fun others h ↦ (segments_eq_iff.2 h).symm⟩
  · rw [← written_escaped, hexpand (proper_escaped _), expand_escaped]
    simp [List.flatMap_map]

/-- The value of one variable names another, and the value of the other is empty. -/
def nestedEnvironment : Environment :=
  fun name ↦ if name = "A" then some "$B" else if name = "B" then some "" else none

def nestedSegments : List Segment :=
  [.dollar, .bare ['A'], .braced ['B'] (some ⟨['$', 'A', '{'], true⟩), .braced ['C'] none,
    .literal '$']

theorem expand_written_segments_nested :
    Proper nestedSegments ∧
      expand nestedEnvironment "$$$A$\x7bB:-$A\x7b\x7d$\x7bC\x7d$" =
        ⟨"$$B$A\x7b$", ["C"]⟩ := by
  have hname (c : Char) (h : isNameStart c = true) : IsName [c] := ⟨c, [], rfl, h, nofun⟩
  have hproper : Proper nestedSegments :=
    ⟨.form (.dollar _), .form (.bare (hname _ rfl) (endsName_cons.2 rfl)),
      .form (.fallback (hname _ rfl) (by decide) _), .form (.braced (hname _ rfl) _),
      .lone (isLone_iff.2 rfl), trivial⟩
  have hset : nestedEnvironment (String.ofList ['A']) = some "$B" := by decide
  have hempty : nestedEnvironment (String.ofList ['B']) = some "" := by decide
  have hunset : nestedEnvironment (String.ofList ['C']) = none := by decide
  obtain ⟨⟨values, hvalues, hexpand⟩, -, -⟩ := expand_written_segments nestedEnvironment hproper
  obtain rfl := (hvalues _).1 <|
    .cons .dollar <| .cons (.value rfl hset nofun) <|
    .cons (.fallback rfl (.inr ⟨rfl, hempty⟩)) <| .cons (.missing rfl hunset) <|
    .cons (.literal '$') .nil
  exact ⟨hproper, hexpand⟩

end CommitCoordinator.Template
