import Mathlib.Data.List.DropRight
import Mathlib.Data.List.Induction
import CommitCoordinator.Proofs.Storage.KeySegments
import CommitCoordinator.Proofs.Text.Utf8

/-!
# URLs of local paths

A local path becomes a URL by escaping what means something else there. Parsing such a URL changes
nothing, and the local path that it names is the one that it was made of.
-/

namespace CommitCoordinator.Url

open Text

/-- What a part of a path cannot hold as it is. -/
def segmentSet : EscapeSet := fun c ↦
  pathSet c || c = '/' || c = '%' || c = '\\'

/-- A character of a path in its escaped form; slashes stay. -/
def escapePathChar (c : Char) : List Char :=
  if c = '/' then ['/'] else encodeChar segmentSet c

/-- A path in its escaped form. -/
def escapePath (path : List Char) : List Char :=
  path.flatMap escapePathChar

/-- Whether a URL can name a path: it is absolute, has one slash at its front and none at its end,
no parts that stand for other directories, and nothing that looks like a drive. -/
structure IsLocal (path : List Char) : Prop where
  absolute : ∃ rest, path = '/' :: rest ∧ rest.head? ≠ some '/'
  open_end : path.getLast? ≠ some '/'
  no_dots : ∀ part ∈ splitOnChar '/' path, part ≠ ['.'] ∧ part ≠ ['.', '.']
  no_bar : '|' ∉ path
  no_drive : isDriveLetter (path.drop (path.length - 2)) = false

/-! ## Escapes and what they stand for -/

theorem hexValue?_hexUpper : ∀ value : Fin 16, hexValue? (hexUpper value) = some value := by
  decide

theorem percentDecode_percent {a b : Char} {high low : Fin 16} (ha : hexValue? a = some high)
    (hb : hexValue? b = some low) (rest : List Char) :
    percentDecode ('%' :: a :: b :: rest) =
      UInt8.ofNat (high.val * 16 + low.val) :: percentDecode rest := by
  rw [percentDecode, ha, hb]

theorem percentDecode_escapeByte (byte : UInt8) (rest : List Char) :
    percentDecode (escapeByte byte ++ rest) = byte :: percentDecode rest := by
  have hvalue : (hexPlace byte.toNat 1).val * 16 + (hexPlace byte.toNat 0).val = byte.toNat := by
    have hbyte : byte.toNat < 256 := byte.toNat_lt
    simp only [hexPlace, Fin.ofNat, Nat.shiftRight_eq_div_pow]
    omega
  change percentDecode ('%' :: hexUpper _ :: hexUpper _ :: rest) = _
  rw [percentDecode_percent (hexValue?_hexUpper _) (hexValue?_hexUpper _), hvalue,
    UInt8.ofNat_toNat]

theorem percentDecode_escapeBytes (bytes : List UInt8) (rest : List Char) :
    percentDecode (bytes.flatMap escapeByte ++ rest) = bytes ++ percentDecode rest := by
  induction bytes with
  | nil => rfl
  | cons byte bytes ih =>
    rw [List.flatMap_cons, List.append_assoc, percentDecode_escapeByte, ih, List.cons_append]

theorem percentDecode_cons_of_ne {c : Char} (h : c ≠ '%') (rest : List Char) :
    percentDecode (c :: rest) = String.utf8EncodeChar c ++ percentDecode rest := by
  rw [percentDecode.eq_def]
  split
  · next heq => cases heq
  · next heq => exact absurd (List.cons.inj heq).1 h
  · next heq =>
    obtain ⟨rfl, rfl⟩ := List.cons.inj heq
    rfl

theorem percentDecode_escapePathChar (c : Char) (rest : List Char) :
    percentDecode (escapePathChar c ++ rest) =
      String.utf8EncodeChar c ++ percentDecode rest := by
  unfold escapePathChar encodeChar
  split_ifs with hslash hset
  · rw [hslash]
    exact percentDecode_cons_of_ne (by decide) rest
  · exact percentDecode_escapeBytes _ rest
  · refine percentDecode_cons_of_ne (fun hpercent ↦ hset ?_) rest
    rw [hpercent]
    rfl

/-- The escaped form stands for the bytes of the path. -/
theorem percentDecode_escapePath (path : List Char) :
    percentDecode (escapePath path) = path.flatMap String.utf8EncodeChar := by
  induction path with
  | nil => rfl
  | cons c rest ih =>
    rw [escapePath, List.flatMap_cons, percentDecode_escapePathChar, ← escapePath, ih,
      List.flatMap_cons]

theorem decodeLossy_escapePath (path : List Char) :
    decodeLossy (percentDecode (escapePath path)) = path := by
  rw [percentDecode_escapePath, decodeLossy_utf8EncodeChar]

/-! ## The characters of escaped paths -/

/-- A character that parsing a URL leaves alone. -/
structure IsSettled (c : Char) : Prop where
  unescaped : pathSet c = false
  ascii : c.toNat ≤ 127
  printed : 32 < c.toNat
  ne_backslash : c ≠ '\\'

theorem isSettled_hexUpper (value : Fin 16) :
    IsSettled (hexUpper value) ∧ hexUpper value ≠ '/' ∧ hexUpper value ≠ '|' := by
  have h : ∀ value : Fin 16, (pathSet (hexUpper value) = false ∧ (hexUpper value).toNat ≤ 127 ∧
      32 < (hexUpper value).toNat ∧ hexUpper value ≠ '\\') ∧ hexUpper value ≠ '/' ∧
        hexUpper value ≠ '|' := by
    decide
  exact ⟨⟨(h value).1.1, (h value).1.2.1, (h value).1.2.2.1, (h value).1.2.2.2⟩, (h value).2⟩

theorem isSettled_percent : IsSettled '%' :=
  ⟨by decide, by decide, by decide, by decide⟩

theorem isSettled_slash : IsSettled '/' :=
  ⟨by decide, by decide, by decide, by decide⟩

theorem printed_of_unescaped {c : Char} (h : pathSet c = false) : 32 < c.toNat := by
  by_contra hcode
  rcases Nat.lt_or_eq_of_le (Nat.not_lt.1 hcode) with hcontrol | hspace
  · simp [pathSet, fragmentSet, isControl, hcontrol] at h
  · obtain rfl : c = ' ' := Char.toNat_inj.1 hspace
    exact absurd h (by decide)

theorem of_mem_escapePathChar {c d : Char} (h : d ∈ escapePathChar c) :
    IsSettled d ∧ (d = '/' → c = '/') ∧ (d = '|' → c = '|') := by
  unfold escapePathChar encodeChar at h
  split_ifs at h with hslash hset
  · rw [List.mem_singleton.1 h]
    exact ⟨isSettled_slash, fun _ ↦ hslash, nofun⟩
  · rcases Storage.eq_of_mem_escapeChar h with rfl | ⟨value, rfl⟩
    · exact ⟨isSettled_percent, nofun, nofun⟩
    · obtain ⟨hsettled, hslash, hbar⟩ := isSettled_hexUpper value
      exact ⟨hsettled, fun h ↦ absurd h hslash, fun h ↦ absurd h hbar⟩
  · obtain rfl := List.mem_singleton.1 h
    simp only [segmentSet, Bool.or_eq_true, decide_eq_true_iff, not_or, Bool.not_eq_true] at hset
    obtain ⟨⟨⟨⟨hpath, -⟩, -⟩, hbackslash⟩, hascii⟩ := hset
    exact ⟨⟨hpath, Nat.not_lt.1 hascii, printed_of_unescaped hpath, hbackslash⟩, id, id⟩

theorem of_mem_escapePath {path : List Char} {d : Char} (h : d ∈ escapePath path) :
    IsSettled d ∧ (d = '|' → '|' ∈ path) := by
  obtain ⟨c, hc, hd⟩ := List.mem_flatMap.1 h
  obtain ⟨hsettled, -, hbar⟩ := of_mem_escapePathChar hd
  exact ⟨hsettled, fun h ↦ hbar h ▸ hc⟩

theorem escapePathChar_eq_cons (c : Char) : ∃ first more, escapePathChar c = first :: more := by
  unfold escapePathChar encodeChar
  split_ifs
  · exact ⟨_, _, rfl⟩
  · obtain ⟨first, more, hencode, -⟩ := utf8Unit_utf8EncodeChar c
    rw [escapeChar, hencode]
    exact ⟨_, _, rfl⟩
  · exact ⟨_, _, rfl⟩

/-- An escaped path begins with a slash if the path does. -/
theorem head?_escapePath {path : List Char} (h : path.head? ≠ some '/') :
    (escapePath path).head? ≠ some '/' := by
  cases path with
  | nil => nofun
  | cons c rest =>
    obtain ⟨first, more, hchar⟩ := escapePathChar_eq_cons c
    have hescape : escapePath (c :: rest) = first :: (more ++ escapePath rest) := by
      rw [escapePath, List.flatMap_cons, hchar, List.cons_append]
      rfl
    rw [hescape]
    intro hhead
    have hmem : '/' ∈ escapePathChar c := by
      rw [hchar, ← Option.some.inj hhead]
      exact List.mem_cons_self
    exact h (congrArg some ((of_mem_escapePathChar hmem).2.1 rfl))

/-! ## The parts of escaped paths -/

theorem splitOnChar_cons_self (separator : Char) (rest : List Char) :
    splitOnChar separator (separator :: rest) = [] :: splitOnChar separator rest :=
  if_pos rfl

theorem splitOnChar_ne_nil (separator : Char) (cs : List Char) :
    splitOnChar separator cs ≠ [] := by
  rw [Storage.splitOnChar_eq_splitOn]
  exact List.splitOn_ne_nil separator cs

theorem splitOnChar_append {separator : Char} {front : List Char} (h : separator ∉ front)
    (rest : List Char) :
    splitOnChar separator (front ++ rest) =
      (splitOnChar separator rest).modifyHead (front ++ ·) := by
  induction front with
  | nil =>
    rw [List.nil_append]
    cases splitOnChar separator rest <;> rfl
  | cons c front ih =>
    obtain ⟨hc, hfront⟩ := not_or.1 (mt List.mem_cons.2 h)
    rw [List.cons_append, splitOnChar, if_neg (Ne.symm hc), ih hfront]
    cases hrest : splitOnChar separator rest with
    | nil => exact absurd hrest (splitOnChar_ne_nil separator rest)
    | cons piece pieces => rfl

/-- Escaping a path escapes its parts. -/
theorem splitOnChar_escapePath (path : List Char) :
    splitOnChar '/' (escapePath path) = (splitOnChar '/' path).map escapePath := by
  induction path with
  | nil => rfl
  | cons c rest ih =>
    rw [escapePath, List.flatMap_cons, ← escapePath]
    by_cases hslash : c = '/'
    · rw [hslash, splitOnChar_cons_self, List.map_cons, ← ih]
      exact splitOnChar_cons_self '/' _
    · have hfront : '/' ∉ escapePathChar c := fun hmem ↦
        hslash ((of_mem_escapePathChar hmem).2.1 rfl)
      rw [splitOnChar_append hfront, ih, splitOnChar, if_neg hslash]
      cases hrest : splitOnChar '/' rest with
      | nil => exact absurd hrest (splitOnChar_ne_nil '/' rest)
      | cons piece pieces => rfl

theorem mem_of_mem_splitOnChar {separator c : Char} {cs piece : List Char}
    (hpiece : piece ∈ splitOnChar separator cs) (hc : c ∈ piece) : c ∈ cs := by
  induction cs generalizing piece with
  | nil => exact List.mem_singleton.1 hpiece ▸ hc
  | cons first rest ih =>
    by_cases hfirst : first = separator
    · rw [hfirst, splitOnChar_cons_self] at hpiece
      rcases List.mem_cons.1 hpiece with rfl | hpiece
      · cases hc
      · exact List.mem_cons_of_mem first (ih hpiece hc)
    · rw [splitOnChar, if_neg hfirst] at hpiece
      cases hrest : splitOnChar separator rest with
      | nil => exact absurd hrest (splitOnChar_ne_nil separator rest)
      | cons head pieces =>
        rw [hrest] at hpiece ih
        rcases List.mem_cons.1 hpiece with rfl | hpiece
        · exact (List.mem_cons.1 hc).elim (fun heq ↦ heq ▸ List.mem_cons_self)
            fun hmem ↦ List.mem_cons_of_mem first (ih List.mem_cons_self hmem)
        · exact List.mem_cons_of_mem first (ih (List.mem_cons_of_mem head hpiece) hc)

theorem map_fst_segments {cs : List Char} (h : '\\' ∉ cs) :
    (segments true cs).map Prod.fst = splitOnChar '/' cs := by
  induction cs with
  | nil => rfl
  | cons c rest ih =>
    obtain ⟨hc, hrest⟩ := not_or.1 (mt List.mem_cons.2 h)
    have ih := ih hrest
    by_cases hslash : c = '/'
    · rw [hslash, splitOnChar_cons_self, ← ih]
      rfl
    · have hother : ¬isSlash true c = true := by
        simp [isSlash, hslash, Ne.symm hc]
      rw [segments, if_neg hother, splitOnChar, if_neg hslash, ← ih]
      cases segments true rest <;> rfl

theorem showPath_splitOnChar (cs : List Char) : showPath (splitOnChar '/' cs) = '/' :: cs := by
  induction cs with
  | nil => rfl
  | cons c rest ih =>
    by_cases hslash : c = '/'
    · rw [hslash, splitOnChar_cons_self, showPath, List.flatMap_cons, ← showPath, ih]
      rfl
    · rw [splitOnChar, if_neg hslash]
      cases hrest : splitOnChar '/' rest with
      | nil => exact absurd hrest (splitOnChar_ne_nil '/' rest)
      | cons piece pieces =>
        rw [hrest] at ih
        have htail := (List.cons.inj ih).2
        exact congrArg (fun tail ↦ '/' :: c :: tail) htail

/-- Points that are escaped or not stand for points. -/
theorem percentDecode_of_points {segment : List Char}
    (h : ∀ c ∈ plainPoints segment, c = '.') :
    percentDecode segment = (plainPoints segment).flatMap String.utf8EncodeChar := by
  fun_induction plainPoints segment with
  | case1 rest ih =>
    have hrest := ih fun c hc ↦ h c (List.mem_cons_of_mem _ hc)
    rw [List.flatMap_cons, ← hrest]
    exact percentDecode_escapeByte 0x2E rest
  | case2 rest ih =>
    have hrest := ih fun c hc ↦ h c (List.mem_cons_of_mem _ hc)
    rw [List.flatMap_cons, ← hrest]
    exact percentDecode_escapeByte 0x2E rest
  | case3 c rest hlower hupper ih =>
    have hpoint := h c List.mem_cons_self
    have hrest := ih fun c hc ↦ h c (List.mem_cons_of_mem _ hc)
    rw [List.flatMap_cons, ← hrest]
    exact percentDecode_cons_of_ne (by rw [hpoint]; decide) rest
  | case4 => rfl

theorem plainPoints_escapePath_ne {part points : List Char} (h : part ≠ points)
    (hpoints : ∀ c ∈ points, c = '.') : plainPoints (escapePath part) ≠ points := by
  intro hplain
  have hdecode := percentDecode_of_points (hplain ▸ hpoints)
  rw [percentDecode_escapePath, hplain] at hdecode
  have hsame := congrArg decodeLossy hdecode
  rw [decodeLossy_utf8EncodeChar, decodeLossy_utf8EncodeChar] at hsame
  exact h hsame

/-! ## What follows a slash -/

/-- Whether a URL can have an escaped path behind a slash: no further slash is at its front, none of
its parts stands for another directory, and nothing in it looks like a drive. -/
structure IsRelative (path : List Char) : Prop where
  head : path.head? ≠ some '/'
  no_dots : ∀ part ∈ splitOnChar '/' path, part ≠ ['.'] ∧ part ≠ ['.', '.']
  no_bar : '|' ∉ path

theorem isRelative_nil : IsRelative [] :=
  ⟨nofun, by decide, List.not_mem_nil⟩

theorem IsRelative.append_slash {path : List Char} (h : IsRelative path) (hne : path ≠ []) :
    IsRelative (path ++ ['/']) where
  head := by
    rw [List.head?_append_of_ne_nil _ hne]
    exact h.head
  no_dots part hpart := by
    rw [Storage.splitOnChar_eq_splitOn, List.splitOn_append_cons_self, List.mem_append,
      ← Storage.splitOnChar_eq_splitOn] at hpart
    rcases hpart with hpart | hpart
    · exact h.no_dots part hpart
    · cases List.mem_singleton.1 hpart
      exact ⟨nofun, nofun⟩
  no_bar hbar := by
    rcases List.mem_append.1 hbar with hbar | hbar
    · exact h.no_bar hbar
    · cases List.mem_singleton.1 hbar

theorem IsLocal.isRelative {path rest : List Char} (h : IsLocal path) (hpath : path = '/' :: rest) :
    IsRelative rest where
  head := by
    obtain ⟨rest', hpath', hhead⟩ := h.absolute
    cases hpath.symm.trans hpath'
    exact hhead
  no_dots part hpart := h.no_dots part (by
    rw [hpath, splitOnChar_cons_self]
    exact List.mem_cons_of_mem _ hpart)
  no_bar hbar := h.no_bar (hpath ▸ List.mem_cons_of_mem _ hbar)

/-- A part of a path that is kept as it is. -/
structure IsKept (part : List Char) : Prop where
  not_single : isSinglePoint part = false
  not_double : isDoublePoint part = false
  settled : ∀ c ∈ part, IsSettled c
  no_bar : '|' ∉ part

theorem addSegment_of_isKept {part : List Char} (h : IsKept part) (path : List (List Char))
    (slash : Bool) : addSegment .file path (part, slash) = path ++ [part] := by
  have hencode : percentEncode pathSet part = part :=
    Storage.percentEncode_eq_self fun c hc ↦ ⟨(h.settled c hc).unescaped, (h.settled c hc).ascii⟩
  simp only [addSegment, h.not_double, h.not_single, hencode, Bool.false_eq_true, if_false]
  split_ifs with hdrive
  · obtain ⟨-, -, hdrive⟩ := hdrive
    unfold isDriveLetter at hdrive
    split at hdrive
    · next letter mark =>
      simp only [Bool.and_eq_true, Bool.or_eq_true, decide_eq_true_iff] at hdrive
      rcases hdrive.2 with rfl | rfl
      · rfl
      · exact absurd (List.mem_cons_of_mem _ List.mem_cons_self) h.no_bar
    · cases hdrive
  · rfl

theorem foldl_addSegment {pieces : List (List Char × Bool)}
    (h : ∀ part ∈ pieces.map Prod.fst, IsKept part) (path : List (List Char)) :
    pieces.foldl (addSegment .file) path = path ++ pieces.map Prod.fst := by
  induction pieces generalizing path with
  | nil => exact (List.append_nil path).symm
  | cons piece rest ih =>
    rw [List.map_cons, List.forall_mem_cons] at h
    rw [List.foldl_cons, addSegment_of_isKept h.1, ih h.2, List.append_assoc, List.map_cons,
      List.singleton_append]

theorem IsRelative.isKept {path part : List Char} (h : IsRelative path)
    (hpart : part ∈ splitOnChar '/' (escapePath path)) : IsKept part := by
  rw [splitOnChar_escapePath] at hpart
  obtain ⟨plain, hplain, rfl⟩ := List.mem_map.1 hpart
  obtain ⟨hsingle, hdouble⟩ := h.no_dots plain hplain
  refine ⟨?_, ?_, fun c hc ↦ (of_mem_escapePath hc).1, fun hbar ↦ ?_⟩
  · exact decide_eq_false (plainPoints_escapePath_ne hsingle (by simp))
  · exact decide_eq_false (plainPoints_escapePath_ne hdouble (by simp))
  · exact h.no_bar (mem_of_mem_splitOnChar hplain ((of_mem_escapePath hbar).2 rfl))

/-- The text up to a slash has its pieces, whatever follows. -/
theorem segments_append_slash (front : List Char) : ∃ first more, ∀ rest,
    segments true (front ++ '/' :: rest) = first :: (more ++ segments true rest) := by
  induction front with
  | nil => exact ⟨([], true), [], fun rest ↦ rfl⟩
  | cons c front ih =>
    obtain ⟨first, more, hsegments⟩ := ih
    by_cases hslash : isSlash true c = true
    · exact ⟨([], true), first :: more, fun rest ↦ by
        rw [List.cons_append, segments, if_pos hslash, hsegments, List.cons_append]⟩
    · obtain ⟨segment, slash⟩ := first
      exact ⟨(c :: segment, slash), more, fun rest ↦ by
        rw [List.cons_append, segments, if_neg hslash, hsegments]⟩

/-- Empty segments are dropped at the front of a path only. -/
theorem dropWhile_append_path {path parts : List (List Char)}
    (hparts : (∃ part, parts = [part]) ∨ ∃ first next rest, parts = first :: next :: rest ∧
      first ≠ []) :
    (path ++ parts).dropLast.dropWhile (· = []) ++ ((path ++ parts).getLast?).toList =
      path.dropWhile (· = []) ++ parts := by
  rcases hparts with ⟨part, rfl⟩ | ⟨first, next, rest, rfl, hfirst⟩
  · rw [List.dropLast_concat, List.getLast?_concat]
    rfl
  · have hlast : (first :: next :: rest).dropLast ++ [(first :: next :: rest).getLast (by simp)] =
        first :: next :: rest := List.dropLast_append_getLast _
    have hdrop : (first :: next :: rest).dropLast.dropWhile (· = []) =
        (first :: next :: rest).dropLast := by
      rw [List.dropLast_cons_cons, List.dropWhile_cons_of_neg (by simpa using hfirst)]
    rw [List.dropLast_append_of_ne_nil (by simp), List.dropWhile_append, hdrop,
      List.getLast?_append_of_ne_nil _ (by simp), List.getLast?_eq_some_getLast (by simp)]
    split
    · next hempty =>
      rw [List.isEmpty_iff.1 hempty]
      exact hlast
    · rw [List.append_assoc]
      exact congrArg _ hlast

/-- The parts of a path that does not begin with a slash. -/
theorem splitOnChar_cases {path : List Char} (h : path.head? ≠ some '/') :
    (∃ part, splitOnChar '/' path = [part]) ∨
      ∃ first next rest, splitOnChar '/' path = first :: next :: rest ∧ first ≠ [] := by
  cases path with
  | nil => exact .inl ⟨[], rfl⟩
  | cons c rest =>
    have hc : c ≠ '/' := fun hc ↦ h (congrArg some hc)
    rw [splitOnChar, if_neg hc]
    cases hrest : splitOnChar '/' rest with
    | nil => exact .inl ⟨_, rfl⟩
    | cons piece pieces =>
      cases pieces with
      | nil => exact .inl ⟨_, rfl⟩
      | cons next pieces => exact .inr ⟨_, _, _, rfl, List.cons_ne_nil _ _⟩

/-! ## Parsing -/

/-- A path is normalized piece by piece, so what comes behind a slash is kept. -/
theorem normalPath_append {front : List Char} {pieces : List (List Char × Bool)}
    (hfront : ∀ rest, segments true (front ++ rest) = pieces ++ segments true rest) :
    ∃ path, ∀ child, IsRelative child →
      normalPath .file (front ++ escapePath child) = path ++ '/' :: escapePath child := by
  refine ⟨showPath ((pieces.foldl (addSegment .file) []).dropWhile (· = [])), fun child hchild ↦ ?_⟩
  have hparts : (segments true (escapePath child)).map Prod.fst =
      splitOnChar '/' (escapePath child) :=
    map_fst_segments fun hmem ↦ (of_mem_escapePath hmem).1.ne_backslash rfl
  have hkept : ∀ part ∈ (segments true (escapePath child)).map Prod.fst, IsKept part := by
    rw [hparts]
    exact fun part hpart ↦ hchild.isKept hpart
  change showPath (((segments true (front ++ escapePath child)).foldl (addSegment .file)
    []).dropLast.dropWhile (· = []) ++ (((segments true (front ++ escapePath child)).foldl
      (addSegment .file) []).getLast?).toList) = _
  rw [hfront, List.foldl_append, foldl_addSegment hkept, hparts,
    dropWhile_append_path (splitOnChar_cases (head?_escapePath hchild.head)), showPath,
    List.flatMap_append]
  exact congrArg _ (showPath_splitOnChar _)

theorem breakAt_of_forall {isEnd : Char → Bool} {cs : List Char}
    (h : ∀ c ∈ cs, isEnd c = false) : breakAt isEnd cs = (cs, []) := by
  induction cs with
  | nil => rfl
  | cons c rest ih =>
    have hrest := ih fun d hd ↦ h d (List.mem_cons_of_mem c hd)
    have hc := h c List.mem_cons_self
    rw [breakAt, List.takeWhile_cons_of_pos (by simp [hc]),
      List.dropWhile_cons_of_pos (by simp [hc])]
    exact congrArg (fun pair : List Char × List Char ↦ (c :: pair.1, pair.2)) hrest

theorem IsSettled.not_isPathEnd {c : Char} (h : IsSettled c) : isPathEnd c = false := by
  rw [isPathEnd, Bool.or_eq_false_iff]
  refine ⟨decide_eq_false ?_, decide_eq_false ?_⟩ <;>
    (rintro rfl; exact absurd h.unescaped (by decide))

theorem readPath_append {front : List Char} (hfront : ∀ c ∈ front, isPathEnd c = false) :
    ∃ path, ∀ child, IsRelative child →
      readPath .file (front ++ '/' :: escapePath child) =
        (path ++ '/' :: escapePath child, []) := by
  have hbreak (child : List Char) : breakAt isPathEnd (front ++ '/' :: escapePath child) =
      (front ++ '/' :: escapePath child, []) := by
    refine breakAt_of_forall fun c hc ↦ ?_
    rcases List.mem_append.1 hc with hc | hc
    · exact hfront c hc
    · rcases List.mem_cons.1 hc with rfl | hc
      · decide
      · exact (of_mem_escapePath hc).1.not_isPathEnd
  have hnormal (text : List Char) : ∃ path, ∀ child, IsRelative child →
      normalPath .file (text ++ '/' :: escapePath child) = path ++ '/' :: escapePath child := by
    obtain ⟨first, more, hsegments⟩ := segments_append_slash text
    have htext : ∀ rest, segments true ((text ++ ['/']) ++ rest) =
        (first :: more) ++ segments true rest := by
      intro rest
      rw [List.append_assoc]
      exact hsegments rest
    obtain ⟨path, hpath⟩ := normalPath_append htext
    exact ⟨path, fun child hchild ↦ by rw [← hpath child hchild, List.append_assoc]; rfl⟩
  cases front with
  | nil =>
    have hempty : ∀ rest, segments true ([] ++ rest) = [] ++ segments true rest := fun _ ↦ rfl
    obtain ⟨path, hpath⟩ := normalPath_append hempty
    refine ⟨path, fun child hchild ↦ ?_⟩
    unfold readPath
    rw [hbreak]
    exact congrArg (·, []) (hpath child hchild)
  | cons c front =>
    by_cases hslash : isSlash true c = true
    · obtain ⟨path, hpath⟩ := hnormal front
      refine ⟨path, fun child hchild ↦ ?_⟩
      unfold readPath
      rw [hbreak]
      exact (if_pos hslash).trans (congrArg (·, []) (hpath child hchild))
    · obtain ⟨path, hpath⟩ := hnormal (c :: front)
      refine ⟨path, fun child hchild ↦ ?_⟩
      unfold readPath
      rw [hbreak]
      exact (if_neg hslash).trans (congrArg (·, []) (hpath child hchild))

/-- What is broken off before a slash does not depend on what follows the slash. -/
theorem breakAt_append {isEnd : Char → Bool} (hslash : isEnd '/' = true) (front : List Char) :
    ∃ text more, (∀ c ∈ more, c ∈ front) ∧ ∀ rest,
      breakAt isEnd (front ++ '/' :: rest) = (text, more ++ '/' :: rest) := by
  induction front with
  | nil =>
    refine ⟨[], [], nofun, fun rest ↦ ?_⟩
    rw [List.nil_append, breakAt, List.takeWhile_cons_of_neg (by simp [hslash]),
      List.dropWhile_cons_of_neg (by simp [hslash])]
  | cons c front ih =>
    cases hc : isEnd c with
    | true =>
      refine ⟨[], c :: front, fun _ ↦ id, fun rest ↦ ?_⟩
      rw [List.cons_append, breakAt, List.takeWhile_cons_of_neg (by simp [hc]),
        List.dropWhile_cons_of_neg (by simp [hc])]
    | false =>
      obtain ⟨text, more, hmore, hbreak⟩ := ih
      refine ⟨c :: text, more, fun d hd ↦ List.mem_cons_of_mem c (hmore d hd), fun rest ↦ ?_⟩
      rw [List.cons_append, breakAt, List.takeWhile_cons_of_pos (by simp [hc]),
        List.dropWhile_cons_of_pos (by simp [hc])]
      exact congrArg (fun pair : List Char × List Char ↦ (c :: pair.1, pair.2)) (hbreak rest)

/-- The host of a file does not depend on what follows a slash. -/
theorem readFileHost_append [DomainNames] (front : List Char) :
    ∃ (authority : Option Authority) (more : List Char), (∀ c ∈ more, c ∈ front) ∧ ∀ rest,
      readFileHost (front ++ '/' :: rest) =
        authority.map fun authority ↦ (authority, more ++ '/' :: rest) := by
  have hslash : isAuthorityEnd true '/' = true := rfl
  obtain ⟨text, more, hmore, hbreak⟩ := breakAt_append hslash front
  unfold readFileHost
  simp only [hbreak]
  split_ifs
  · exact ⟨some _, front, fun _ ↦ id, fun rest ↦ rfl⟩
  · exact ⟨some _, more, hmore, fun rest ↦ rfl⟩
  · exact ⟨(domainHost? text).map fun host ↦ ⟨"", none, String.ofList (if host = "localhost".toList
      then [] else host), none⟩, more, hmore, fun rest ↦ by rw [Option.map_map]; rfl⟩

/-- The URL of a file on a host. -/
def onHost (authority : Authority) (path : List Char) : Url :=
  ⟨"file", some (Authority.onDrive authority path), String.ofList path, false, none, none⟩

/-- The text behind the scheme is read up to a slash as if nothing followed, unless the slash is the
second one at its front. -/
theorem readFile_append [DomainNames] {front : List Char}
    (hfront : ∀ c ∈ front, isPathEnd c = false)
    (hopen : ∀ c, front = [c] → isSlash true c = false) :
    ∃ authority path, ∀ child, IsRelative child →
      readFile (front ++ '/' :: escapePath child) =
        Option.map (onHost · (path ++ '/' :: escapePath child)) authority := by
  have hbare (hlength : ∀ child, IsRelative child →
      ((((front ++ '/' :: escapePath child).take 2).takeWhile (isSlash true)).length ≠ 2)) :
      ∃ authority path, ∀ child, IsRelative child →
        readFile (front ++ '/' :: escapePath child) =
          Option.map (onHost · (path ++ '/' :: escapePath child)) authority := by
    obtain ⟨path, hpath⟩ := readPath_append hfront
    refine ⟨some ⟨"", none, "", none⟩, path, fun child hchild ↦ ?_⟩
    have hdrive : Authority.onDrive ⟨"", none, "", none⟩ (path ++ '/' :: escapePath child) =
        ⟨"", none, "", none⟩ := ite_self _
    unfold readFile
    rw [if_neg (hlength child hchild), hpath child hchild, Option.map_some, onHost, hdrive]
    rfl
  match front with
  | [] =>
    refine hbare fun child hchild ↦ ?_
    have hhead := head?_escapePath hchild.head
    cases hmore : escapePath child with
    | nil => decide
    | cons c more =>
      have hslash : c ≠ '/' := fun hc ↦ hhead (hmore ▸ congrArg some hc)
      have hbackslash : c ≠ '\\' :=
        (of_mem_escapePath (hmore ▸ List.mem_cons_self : c ∈ escapePath child)).1.ne_backslash
      simp [isSlash, hslash, hbackslash]
  | [c] =>
    refine hbare fun child hchild ↦ ?_
    simp [hopen c rfl]
  | first :: second :: more =>
    by_cases hlength : (([first, second]).takeWhile (isSlash true)).length = 2
    · obtain ⟨authority, tail, htail, hhost⟩ := readFileHost_append more
      have hplain : ∀ c ∈ tail, isPathEnd c = false := fun c hc ↦
        hfront c (List.mem_cons_of_mem _ (List.mem_cons_of_mem _ (htail c hc)))
      obtain ⟨path, hpath⟩ := readPath_append hplain
      refine ⟨authority, path, fun child hchild ↦ ?_⟩
      unfold readFile
      have hdrop : (first :: second :: more ++ '/' :: escapePath child).drop 2 =
          more ++ '/' :: escapePath child := rfl
      simp only [hdrop, hhost]
      refine (if_pos hlength).trans ?_
      cases authority with
      | none => rfl
      | some authority =>
        simp only [Option.map_some, Option.bind_eq_bind, Option.bind_some, hpath child hchild]
        rfl
    · exact hbare fun child _ ↦ hlength

/-! ## Whole URLs of files -/

/-- The scheme of local files. -/
def fileScheme : List Char :=
  "file:".toList

/-- The scheme of local files and an absent host. -/
def fileSchemeHost : List Char :=
  "file://".toList

/-- Blanks at the end and line breaks are dropped, the scheme stays. -/
theorem cleanInput_file (rest : List Char) : cleanInput (String.ofList (fileScheme ++ rest)) =
    fileScheme ++ (rest.rdropWhile isEdgeSpace).filter fun c ↦ !isTabOrNewline c := by
  have hfront : (fileScheme ++ rest).dropWhile isEdgeSpace = fileScheme ++ rest := rfl
  have hback : (fileScheme ++ rest).rdropWhile isEdgeSpace =
      fileScheme ++ rest.rdropWhile isEdgeSpace := by
    simp only [List.rdropWhile, List.reverse_append, List.dropWhile_append]
    split
    · next hempty =>
      rw [List.isEmpty_iff.1 hempty]
      rfl
    · rw [List.reverse_append, List.reverse_reverse]
  rw [cleanInput, String.toList_ofList, hfront]
  change ((fileScheme ++ rest).rdropWhile isEdgeSpace).filter _ = _
  rw [hback, List.filter_append]
  rfl

theorem cleanInput_append (front child : List Char) :
    cleanInput (String.ofList (fileScheme ++ (front ++ '/' :: escapePath child))) =
      fileScheme ++ ((front.filter fun c ↦ !isTabOrNewline c) ++ '/' :: escapePath child) := by
  have hprinted : ∀ c ∈ '/' :: escapePath child, 32 < c.toNat := by
    rintro c (_ | ⟨_, hc⟩)
    · decide
    · exact (of_mem_escapePath hc).1.printed
  have hlast : (front ++ '/' :: escapePath child).rdropWhile isEdgeSpace =
      front ++ '/' :: escapePath child := by
    refine List.rdropWhile_eq_self_iff.2 fun hne ↦ ?_
    rw [List.getLast_append_of_ne_nil _ (List.cons_ne_nil _ _)]
    have hend := hprinted _ (List.getLast_mem (List.cons_ne_nil '/' (escapePath child)))
    simpa [isEdgeSpace] using hend
  have hfilter : ('/' :: escapePath child).filter (fun c ↦ !isTabOrNewline c) =
      '/' :: escapePath child := by
    refine List.filter_eq_self.2 fun c hc ↦ ?_
    have hc := hprinted c hc
    unfold isTabOrNewline
    rw [Bool.not_eq_true', Bool.or_eq_false_iff, Bool.or_eq_false_iff]
    refine ⟨⟨decide_eq_false ?_, decide_eq_false ?_⟩, decide_eq_false ?_⟩ <;>
      (rintro rfl; exact absurd hc (by decide))
  rw [cleanInput_file, hlast, List.filter_append, hfilter]

/-- A URL of a file is parsed up to a slash as if nothing followed. -/
theorem parse?_append [DomainNames] {front : List Char} (hfront : ∀ c ∈ front, isPathEnd c = false)
    (hopen : ∀ c, (front.filter fun c ↦ !isTabOrNewline c) = [c] → isSlash true c = false) :
    ∃ authority path, ∀ child, IsRelative child →
      parse? (String.ofList (fileScheme ++ (front ++ '/' :: escapePath child))) =
        Option.map (onHost · (path ++ '/' :: escapePath child)) authority := by
  obtain ⟨authority, path, hread⟩ :=
    readFile_append (fun c hc ↦ hfront c (List.mem_of_mem_filter hc)) hopen
  refine ⟨authority, path, fun child hchild ↦ ?_⟩
  rw [← hread child hchild]
  unfold parse?
  rw [cleanInput_append]
  rfl

theorem scheme_of_readFile [DomainNames] {cs : List Char} {url : Url}
    (h : readFile cs = some url) : url.scheme = "file" := by
  unfold readFile at h
  dsimp only at h
  split at h
  · obtain ⟨⟨authority, rest⟩, -, hmake⟩ := Option.bind_eq_some_iff.1 h
    cases hmake
    rfl
  · cases h
    rfl

theorem scheme_of_parse? [DomainNames] {text : String} {rest : List Char}
    (htext : text.toList = fileScheme ++ rest) {url : Url} (h : parse? text = some url) :
    url.scheme = "file" := by
  have hclean := cleanInput_file rest
  rw [← htext, String.ofList_toList] at hclean
  unfold parse? at h
  rw [hclean] at h
  exact scheme_of_readFile h

theorem startsWithDrive_append {path : List Char} (h : startsWithDrive (path ++ ['/']) = true)
    (rest : List Char) : startsWithDrive (path ++ '/' :: rest) = true := by
  match path with
  | [] => cases h
  | [_] => cases h
  | [_, _] =>
    unfold startsWithDrive isNormalDriveLetter at h
    simp at h
  | _ :: _ :: _ :: more =>
    cases more with
    | nil => simpa [startsWithDrive] using h
    | cons c more => simpa [startsWithDrive] using h

theorem not_isDriveLetter_of_slash (path : List Char) :
    isDriveLetter ((path ++ ['/']).drop ((path ++ ['/']).length - 2)) = false := by
  rcases List.eq_nil_or_concat' path with rfl | ⟨front, c, rfl⟩
  · rfl
  · have hdrop : (front ++ [c] ++ ['/']).drop ((front ++ [c] ++ ['/']).length - 2) = [c, '/'] := by
      rw [List.append_assoc]
      exact List.drop_left' (by simp)
    rw [hdrop]
    simp [isDriveLetter]

/-- What the pieces of a path stand for, up to a slash. -/
theorem decoded_append (path : List Char) : ∃ decoded, ∀ child,
    (splitOnChar '/' ((path ++ '/' :: escapePath child).drop 1)).flatMap
      (fun piece ↦ '/' :: decodeLossy (percentDecode piece)) = decoded ++ '/' :: child := by
  have hchild (child : List Char) : (splitOnChar '/' (escapePath child)).flatMap
      (fun piece ↦ '/' :: decodeLossy (percentDecode piece)) = '/' :: child := by
    rw [splitOnChar_escapePath, List.flatMap_map]
    simp only [decodeLossy_escapePath]
    exact showPath_splitOnChar child
  cases path with
  | nil => exact ⟨[], hchild⟩
  | cons c path =>
    refine ⟨(splitOnChar '/' path).flatMap fun piece ↦ '/' :: decodeLossy (percentDecode piece),
      fun child ↦ ?_⟩
    rw [List.cons_append, List.drop_one, List.tail_cons, Storage.splitOnChar_eq_splitOn,
      List.splitOn_append_cons_self, List.flatMap_append, ← Storage.splitOnChar_eq_splitOn,
      ← Storage.splitOnChar_eq_splitOn, hchild]

/-- The local path of a URL is what its pieces stand for, unless they end in a drive. -/
theorem localPath?_eq_some_iff {url : Url} {decoded : List Char} (hplain : url.isOpaque = false)
    (hempty : url.path.isEmpty = false)
    (hpieces : (url.pathPieces.flatMap fun piece ↦
      '/' :: decodeLossy (percentDecode piece)) = decoded)
    (hdrive : isDriveLetter (decoded.drop (decoded.length - 2)) = false) {path : String} :
    url.localPath? = some path ↔
      (url.host? = none ∨ url.host? = some "localhost") ∧ path = String.ofList decoded := by
  unfold localPath?
  simp only [hplain, hempty, hpieces, hdrive, Bool.false_eq_true, and_false, if_false]
  split
  · next hhost => simp [hhost, eq_comm]
  · next hhost => simp [hhost, eq_comm]
  · next host hne hhost => simpa [hhost] using fun h ↦ absurd h hne

/-- Local paths of URLs are absolute. -/
theorem head?_of_localPath? {url : Url} {path : String} (h : url.localPath? = some path) :
    path.toList.head? = some '/' := by
  obtain ⟨rest, hrest⟩ : ∃ rest, (url.pathPieces.flatMap fun piece ↦
      '/' :: decodeLossy (percentDecode piece)) = '/' :: rest := by
    cases hpieces : url.pathPieces with
    | nil => exact absurd hpieces (splitOnChar_ne_nil '/' _)
    | cons piece pieces => exact ⟨_, rfl⟩
  unfold localPath? at h
  simp only [hrest] at h
  split_ifs at h with hopaque hempty hdrive <;> split at h <;> cases h <;>
    rw [String.toList_ofList] <;> rfl

/-- Whoever is the host of a directory, is the host of what is in it. -/
theorem host?_onHost_append {authority : Authority} {path : List Char}
    (h : (onHost authority (path ++ ['/'])).host? = none ∨
      (onHost authority (path ++ ['/'])).host? = some "localhost") (rest : List Char) :
    (onHost authority (path ++ '/' :: rest)).host? = none ∨
      (onHost authority (path ++ '/' :: rest)).host? = some "localhost" := by
  unfold onHost host? Authority.onDrive at *
  by_cases hdrive : startsWithDrive (path ++ '/' :: rest) = true
  · left
    simp [hdrive]
  · have hno : ¬startsWithDrive (path ++ ['/']) = true :=
      fun h ↦ hdrive (startsWithDrive_append h rest)
    simpa only [if_neg hdrive, if_neg hno] using h

/-- An escaped path behind the URL of a directory leads to the path in that directory. -/
theorem localPath?_onHost {authority : Authority} {path : List Char} {root : String}
    (hroot : (onHost authority (path ++ ['/'])).localPath? = some root) {child : List Char}
    (hdrive : isDriveLetter ((root.toList ++ child).drop ((root.toList ++ child).length - 2)) =
      false) :
    (onHost authority (path ++ '/' :: escapePath child)).localPath? =
      some (root ++ String.ofList child) := by
  obtain ⟨decoded, hdecoded⟩ := decoded_append path
  have hpieces (child : List Char) :
      ((onHost authority (path ++ '/' :: escapePath child)).pathPieces.flatMap fun piece ↦
        '/' :: decodeLossy (percentDecode piece)) = decoded ++ '/' :: child := by
    rw [pathPieces, onHost, String.toList_ofList]
    exact hdecoded child
  have hempty (rest : List Char) :
      (onHost authority (path ++ '/' :: rest)).path.isEmpty = false := by
    rw [onHost, ← Bool.not_eq_true, String.isEmpty_iff, ← String.toList_eq_nil_iff,
      String.toList_ofList]
    exact List.append_ne_nil_of_right_ne_nil _ (List.cons_ne_nil _ _)
  obtain ⟨hhost, rfl⟩ := (localPath?_eq_some_iff rfl (hempty []) (hpieces [])
    (not_isDriveLetter_of_slash decoded)).1 hroot
  have hsplit : decoded ++ '/' :: child = (String.ofList (decoded ++ ['/'])).toList ++ child := by
    rw [String.toList_ofList, List.append_assoc]
    rfl
  refine (localPath?_eq_some_iff rfl (hempty _) (hpieces child) (by rwa [hsplit])).2
    ⟨host?_onHost_append hhost _, ?_⟩
  refine String.toList_injective ?_
  simp only [hsplit, String.toList_append, String.toList_ofList]

end CommitCoordinator.Url
