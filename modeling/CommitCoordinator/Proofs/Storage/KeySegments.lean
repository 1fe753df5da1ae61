import Mathlib.Data.List.Basic
import Mathlib.Data.List.Infix
import Mathlib.Data.List.TakeWhile
import Mathlib.Tactic.SplitIfs
import Mathlib.Tactic.Tauto
import CommitCoordinator.Storage.ObjectListing

/-!
# Keys as lists of segments

What a key means is the list of its segments. Joining and splitting are inverse to each other for
segments without slashes, and the slashes that a text has around or between its segments do not
change them. A key below another one continues the segments of that one.
-/

namespace CommitCoordinator.Storage

/-- The pieces of text between slashes that are not empty. -/
def keyParts (cs : List Char) : List (List Char) :=
  (Url.splitOnChar '/' cs).filter (· ≠ [])

/-- The text of segments with one slash between them. -/
def joined (segments : List (List Char)) : List Char :=
  List.intercalate ['/'] segments

/-- Text between two slashes of a key. -/
def IsSegment (segment : List Char) : Prop :=
  segment ≠ [] ∧ '/' ∉ segment

/-- A segment that becomes part of a key as it is. -/
def IsPlain (segment : List Char) : Prop :=
  segment ≠ ['.'] ∧ segment ≠ ['.', '.'] ∧
    ∀ c ∈ segment, isReservedInKey c = false ∧ c.toNat ≤ 127

/-- Text that is a key already: no two slashes in a row and none at its ends. -/
def IsKey (cs : List Char) : Prop :=
  joined (keyParts cs) = cs

instance (segment : List Char) : Decidable (IsPlain segment) :=
  haveI : Decidable (∀ c ∈ segment, isReservedInKey c = false ∧ c.toNat ≤ 127) :=
    List.decidableBAll _ segment
  inferInstanceAs (Decidable (_ ∧ _ ∧ _))

instance (cs : List Char) : Decidable (IsKey cs) :=
  inferInstanceAs (Decidable (_ = _))

theorem splitOnChar_eq_splitOn (separator : Char) (cs : List Char) :
    Url.splitOnChar separator cs = cs.splitOn separator := by
  induction cs with
  | nil => exact (List.splitOn_nil separator).symm
  | cons c rest ih =>
    rw [Url.splitOnChar, List.splitOn_cons_eq_if_modifyHead, ih]
    cases hrest : rest.splitOn separator with
    | nil => exact absurd hrest (List.splitOn_ne_nil separator rest)
    | cons piece pieces => simp only [beq_iff_eq, List.modifyHead_cons]

theorem notMem_of_mem_splitOn {separator : Char} {cs piece : List Char}
    (h : piece ∈ cs.splitOn separator) : separator ∉ piece := by
  induction cs generalizing piece with
  | nil =>
    rw [List.splitOn_nil, List.mem_singleton] at h
    exact h ▸ List.not_mem_nil
  | cons c rest ih =>
    rw [List.splitOn_cons_eq_if_modifyHead] at h
    split at h
    · rcases List.mem_cons.1 h with rfl | h
      · exact List.not_mem_nil
      · exact ih h
    · next hc =>
      cases hrest : rest.splitOn separator with
      | nil => exact absurd hrest (List.splitOn_ne_nil separator rest)
      | cons first pieces =>
        rw [hrest] at h ih
        rcases List.mem_cons.1 h with rfl | h
        · have hfirst := ih List.mem_cons_self
          exact fun hmem ↦ (List.mem_cons.1 hmem).elim (fun heq ↦ hc (beq_iff_eq.2 heq.symm)) hfirst
        · exact ih (List.mem_cons_of_mem first h)

/-! ## Pieces between slashes -/

section Parts

variable {cs before rest : List Char} {segment : List Char} {segments more : List (List Char)}

theorem keyParts_eq (cs : List Char) : keyParts cs = (cs.splitOn '/').filter (· ≠ []) := by
  rw [keyParts, splitOnChar_eq_splitOn]

@[simp] theorem keyParts_nil : keyParts [] = [] :=
  rfl

theorem isSegment_of_mem_keyParts (h : segment ∈ keyParts cs) : IsSegment segment := by
  rw [keyParts_eq, List.mem_filter] at h
  exact ⟨of_decide_eq_true h.2, notMem_of_mem_splitOn h.1⟩

theorem keyParts_append_slash (before rest : List Char) :
    keyParts (before ++ '/' :: rest) = keyParts before ++ keyParts rest := by
  rw [keyParts_eq, List.splitOn_append_cons_self, List.filter_append, ← keyParts_eq, ← keyParts_eq]

theorem keyParts_cons_slash (rest : List Char) : keyParts ('/' :: rest) = keyParts rest :=
  keyParts_append_slash [] rest

theorem keyParts_append_of_slashes {slashes : List Char} (h : ∀ c ∈ slashes, c = '/')
    (cs : List Char) : keyParts (cs ++ slashes) = keyParts cs := by
  cases slashes with
  | nil => rw [List.append_nil]
  | cons slash rest =>
    obtain rfl := h slash List.mem_cons_self
    have hrest : keyParts rest = [] := by
      induction rest with
      | nil => rfl
      | cons c rest ih =>
        obtain rfl := h c (List.mem_cons_of_mem _ List.mem_cons_self)
        rw [keyParts_cons_slash]
        exact ih fun c hc ↦ h c (by simp only [List.mem_cons] at hc ⊢; tauto)
    rw [keyParts_append_slash, hrest, List.append_nil]

@[simp] theorem keyParts_dropLeadingSlashes (cs : List Char) :
    keyParts (dropLeadingSlashes cs) = keyParts cs := by
  induction cs with
  | nil => rfl
  | cons c rest ih =>
    rw [dropLeadingSlashes, List.dropWhile_cons]
    split
    · next hslash =>
      obtain rfl : c = '/' := of_decide_eq_true hslash
      rw [keyParts_cons_slash, ← ih, dropLeadingSlashes]
    · rfl

theorem dropTrailingSlashes_append (cs : List Char) :
    ∃ slashes, (∀ c ∈ slashes, c = '/') ∧ cs = dropTrailingSlashes cs ++ slashes := by
  refine ⟨(cs.reverse.takeWhile (· = '/')).reverse, fun c hc ↦ ?_, ?_⟩
  · have hslash := List.mem_takeWhile_imp (List.mem_reverse.1 hc)
    exact of_decide_eq_true hslash
  · rw [dropTrailingSlashes, ← List.reverse_append, List.takeWhile_append_dropWhile,
      List.reverse_reverse]

@[simp] theorem keyParts_dropTrailingSlashes (cs : List Char) :
    keyParts (dropTrailingSlashes cs) = keyParts cs := by
  obtain ⟨slashes, hslashes, hcs⟩ := dropTrailingSlashes_append cs
  rw [hcs, keyParts_append_of_slashes hslashes, ← hcs]

@[simp] theorem joined_singleton (segment : List Char) : joined [segment] = segment :=
  List.intercalate_singleton

theorem joined_cons (segment : List Char) (h : more ≠ []) :
    joined (segment :: more) = segment ++ '/' :: joined more := by
  rw [joined, List.intercalate_cons_of_ne_nil h, List.append_assoc, List.singleton_append, joined]

theorem joined_append (segments : List (List Char)) (h : more ≠ []) :
    joined (segments ++ more) =
      if segments = [] then joined more else joined segments ++ '/' :: joined more := by
  induction segments with
  | nil => rfl
  | cons segment rest ih =>
    rw [if_neg (List.cons_ne_nil segment rest), List.cons_append,
      joined_cons segment (List.append_ne_nil_of_right_ne_nil rest h), ih]
    split
    · next hrest => rw [hrest, joined_singleton]
    · next hrest => rw [joined_cons segment hrest, List.append_assoc, List.cons_append]

theorem joined_eq_nil (h : ∀ segment ∈ segments, IsSegment segment) :
    joined segments = [] ↔ segments = [] := by
  refine ⟨fun hjoined ↦ ?_, fun hnil ↦ hnil ▸ rfl⟩
  cases segments with
  | nil => rfl
  | cons segment rest =>
    have hsegment := (h segment List.mem_cons_self).1
    cases rest with
    | nil => exact absurd (joined_singleton segment ▸ hjoined) hsegment
    | cons next rest =>
      rw [joined_cons segment (List.cons_ne_nil next rest)] at hjoined
      exact absurd hjoined (List.append_ne_nil_of_right_ne_nil segment (List.cons_ne_nil _ _))

theorem keyParts_joined (h : ∀ segment ∈ segments, IsSegment segment) :
    keyParts (joined segments) = segments := by
  cases hsegments : segments with
  | nil => rfl
  | cons segment rest =>
    rw [← hsegments, keyParts_eq, joined,
      List.splitOn_intercalate '/' (fun segment hmem ↦ (h segment hmem).2) (by simp [hsegments])]
    exact List.filter_eq_self.2 fun segment hmem ↦ decide_eq_true (h segment hmem).1

theorem isKey_of_splitOn (h : ∀ piece ∈ Url.splitOnChar '/' cs, piece ≠ []) : IsKey cs := by
  have hparts : keyParts cs = cs.splitOn '/' := by
    rw [keyParts, List.filter_eq_self.2 fun piece hmem ↦ decide_eq_true (h piece hmem),
      splitOnChar_eq_splitOn]
  rw [IsKey, hparts, joined, List.intercalate_splitOn]

theorem dropLeadingSlashes_joined (h : ∀ segment ∈ segments, IsSegment segment) :
    dropLeadingSlashes (joined segments) = joined segments := by
  cases segments with
  | nil => rfl
  | cons segment rest =>
    obtain ⟨hne, hslash⟩ := h segment List.mem_cons_self
    cases segment with
    | nil => exact absurd rfl hne
    | cons c cs =>
      have hc : c ≠ '/' := fun hc ↦ hslash (hc ▸ List.mem_cons_self)
      have hhead : ∃ tail, joined ((c :: cs) :: rest) = c :: tail := by
        cases rest with
        | nil => exact ⟨cs, joined_singleton (c :: cs)⟩
        | cons next rest => exact ⟨_, joined_cons (c :: cs) (List.cons_ne_nil next rest)⟩
      obtain ⟨tail, htail⟩ := hhead
      rw [htail, dropLeadingSlashes, List.dropWhile_cons_of_neg (by simpa using hc)]

end Parts

/-! ## Keys below keys -/

section Below

variable {directory segments rest : List (List Char)}

theorem drop_length_joined_append (directory : List (List Char)) (rest : List (List Char))
    (hdirectory : directory ≠ []) :
    joined directory <+: joined (directory ++ rest) ∧
      (joined (directory ++ rest)).drop (joined directory).length =
        if rest = [] then [] else '/' :: joined rest := by
  by_cases hrest : rest = []
  · subst hrest
    rw [List.append_nil, List.drop_length, if_pos rfl]
    exact ⟨List.prefix_rfl, rfl⟩
  · rw [joined_append directory hrest, if_neg hdirectory, if_neg hrest, List.drop_left]
    exact ⟨List.prefix_append _ _, rfl⟩

/-- A prefix of a key that ends at a segment boundary is the key of the first segments. -/
theorem exists_append_of_joined_prefix (hdirectory : ∀ segment ∈ directory, IsSegment segment)
    (hsegments : ∀ segment ∈ segments, IsSegment segment)
    (hstarts : joined directory <+: joined segments)
    (hboundary : (joined segments).drop (joined directory).length = [] ∨
      ∃ rest, (joined segments).drop (joined directory).length = '/' :: rest) :
    ∃ rest, segments = directory ++ rest := by
  obtain ⟨tail, htail⟩ := hstarts
  rw [← htail, List.drop_left] at hboundary
  have hparts := keyParts_joined hsegments
  rcases hboundary with rfl | ⟨rest, rfl⟩
  · rw [← htail, List.append_nil, keyParts_joined hdirectory] at hparts
    exact ⟨[], by rw [List.append_nil, hparts]⟩
  · rw [← htail, keyParts_append_slash, keyParts_joined hdirectory] at hparts
    exact ⟨keyParts rest, hparts.symm⟩

theorem pieces_joined (h : ∀ segment ∈ rest, IsSegment segment) :
    (if joined rest = [] then [] else Url.splitOnChar '/' (joined rest)) = rest := by
  by_cases hrest : rest = []
  · subst hrest
    rfl
  · rw [if_neg fun hnil ↦ hrest ((joined_eq_nil h).1 hnil), splitOnChar_eq_splitOn, joined,
      List.splitOn_intercalate '/' (fun segment hmem ↦ (h segment hmem).2) hrest]

theorem segmentsBelow_append (hrest : ∀ segment ∈ rest, IsSegment segment)
    (hdirectory : ∀ segment ∈ directory, IsSegment segment) :
    segmentsBelow (joined directory) (joined (directory ++ rest)) = some rest := by
  by_cases hempty : directory = []
  · subst hempty
    rw [segmentsBelow, if_pos (by rfl)]
    exact congrArg some (pieces_joined hrest)
  · obtain ⟨hstarts, hdrop⟩ := drop_length_joined_append directory rest hempty
    rw [segmentsBelow, if_neg fun hnil ↦ hempty ((joined_eq_nil hdirectory).1 hnil),
      if_pos (List.isPrefixOf_iff_prefix.2 hstarts), hdrop]
    split_ifs with hnil
    · rw [hnil]
    · exact congrArg some (pieces_joined hrest)

/-- A key lies below another one if it continues the segments of that one. -/
theorem segmentsBelow_eq_some (hdirectory : ∀ segment ∈ directory, IsSegment segment)
    (hsegments : ∀ segment ∈ segments, IsSegment segment) :
    segmentsBelow (joined directory) (joined segments) = some rest ↔
      segments = directory ++ rest := by
  constructor
  · intro h
    have hsplit : ∃ tail, segments = directory ++ tail := by
      by_cases hempty : directory = []
      · exact ⟨segments, by rw [hempty, List.nil_append]⟩
      · rw [segmentsBelow, if_neg fun hnil ↦ hempty ((joined_eq_nil hdirectory).1 hnil)] at h
        split at h
        · next hstarts =>
          refine exists_append_of_joined_prefix hdirectory hsegments
            (List.isPrefixOf_iff_prefix.1 hstarts) ?_
          split at h
          · next hdrop => exact .inl hdrop
          · next tail hdrop => exact .inr ⟨tail, hdrop⟩
          · cases h
        · cases h
    obtain ⟨tail, rfl⟩ := hsplit
    rw [segmentsBelow_append (fun segment hmem ↦ hsegments segment (List.mem_append_right _ hmem))
      hdirectory, Option.some_inj] at h
    rw [h]
  · rintro rfl
    exact segmentsBelow_append (fun segment hmem ↦ hsegments segment (List.mem_append_right _ hmem))
      hdirectory

theorem childKey_joined (h : ∀ segment ∈ directory, IsSegment segment) (name : List Char) :
    (childKey (joined directory) name).toList = joined (directory ++ [name]) := by
  rw [childKey, String.toList_ofList, joined_append directory (List.cons_ne_nil name []),
    joined_singleton]
  exact if_congr (joined_eq_nil h) rfl rfl

end Below

/-! ## Text that becomes a key -/

theorem eq_of_mem_escapeChar {c d : Char} (h : d ∈ Url.escapeChar c) :
    d = '%' ∨ ∃ value, d = Text.hexUpper value := by
  obtain ⟨byte, -, hd⟩ := List.mem_flatMap.1 h
  simp only [Url.escapeByte, Text.byteHexUpper, List.mem_cons, List.not_mem_nil, or_false] at hd
  exact hd.imp_right fun hd ↦ hd.elim (fun h ↦ ⟨_, h⟩) fun h ↦ ⟨_, h⟩

/-- An escaped character is longer than before. -/
theorem two_le_length_escapeChar (c : Char) : 2 ≤ (Url.escapeChar c).length := by
  have hbytes : 0 < (String.utf8EncodeChar c).length := by
    rw [String.length_utf8EncodeChar]
    exact c.utf8Size_pos
  obtain ⟨byte, more, hencode⟩ := List.exists_cons_of_length_pos hbytes
  rw [Url.escapeChar, hencode, List.flatMap_cons, List.length_append]
  exact Nat.le_add_right_of_le (by simp [Url.escapeByte, Text.byteHexUpper])

theorem slash_notMem_escapeChar (c : Char) : '/' ∉ Url.escapeChar c := by
  have hdigit : ∀ value : Fin 16, '/' ≠ Text.hexUpper value := by decide
  intro h
  rcases eq_of_mem_escapeChar h with h | ⟨value, h⟩
  · exact absurd h (by decide)
  · exact hdigit value h

theorem length_le_percentEncode (set : Url.EscapeSet) (cs : List Char) :
    cs.length ≤ (Url.percentEncode set cs).length := by
  induction cs with
  | nil => exact Nat.le_refl 0
  | cons c rest ih =>
    rw [Url.percentEncode, List.flatMap_cons, ← Url.percentEncode, List.length_append,
      List.length_cons, Url.encodeChar]
    have hescape := two_le_length_escapeChar c
    split
    · omega
    · rw [List.length_singleton]
      omega

theorem percentEncode_eq_self {set : Url.EscapeSet} {cs : List Char}
    (h : ∀ c ∈ cs, set c = false ∧ c.toNat ≤ 127) : Url.percentEncode set cs = cs := by
  induction cs with
  | nil => rfl
  | cons c rest ih =>
    obtain ⟨hset, hascii⟩ := h c List.mem_cons_self
    have hchar : Url.encodeChar set c = [c] := by
      rw [Url.encodeChar, hset]
      simp only [Bool.false_or, decide_eq_true_iff]
      exact if_neg (Nat.not_lt.2 hascii)
    rw [Url.percentEncode, List.flatMap_cons, hchar, ← Url.percentEncode,
      ih fun c hc ↦ h c (List.mem_cons_of_mem _ hc), List.singleton_append]

/-- Text is the same in its escaped form only if nothing in it is escaped. -/
theorem of_percentEncode_eq_self {set : Url.EscapeSet} {cs : List Char}
    (h : Url.percentEncode set cs = cs) : ∀ c ∈ cs, set c = false ∧ c.toNat ≤ 127 := by
  induction cs with
  | nil => exact fun _ hmem ↦ absurd hmem List.not_mem_nil
  | cons c rest ih =>
    rw [Url.percentEncode, List.flatMap_cons, ← Url.percentEncode, Url.encodeChar] at h
    split at h
    · have hlength := congrArg List.length h
      rw [List.length_append, List.length_cons] at hlength
      have hescape := two_le_length_escapeChar c
      have hrest := length_le_percentEncode set rest
      omega
    · next hkept =>
      simp only [Bool.or_eq_true, decide_eq_true_iff, not_or, Bool.not_eq_true] at hkept
      refine List.forall_mem_cons.2 ⟨⟨hkept.1, Nat.not_lt.1 hkept.2⟩, ih ?_⟩
      exact (List.cons.inj h).2

theorem keySegment_of_plain {segment : List Char} (h : IsPlain segment) :
    keySegment segment = segment := by
  rw [keySegment, if_neg h.1, if_neg h.2.1, percentEncode_eq_self h.2.2]

/-- A segment becomes part of a key as it is only if it is plain. -/
theorem keySegment_eq_self_iff {segment : List Char} :
    keySegment segment = segment ↔ IsPlain segment := by
  refine ⟨fun h ↦ ?_, keySegment_of_plain⟩
  rw [keySegment] at h
  split_ifs at h with hdot hdots
  · exact absurd (h.trans hdot) (by decide)
  · exact absurd (h.trans hdots) (by decide)
  · exact ⟨hdot, hdots, of_percentEncode_eq_self h⟩

theorem isSegment_keySegment {segment : List Char} (h : IsSegment segment) :
    IsSegment (keySegment segment) := by
  rw [keySegment]
  split_ifs
  · exact ⟨by decide, by decide⟩
  · exact ⟨by decide, by decide⟩
  · constructor
    · have hlength := length_le_percentEncode isReservedInKey segment
      intro hnil
      rw [hnil, List.length_nil, Nat.le_zero, List.length_eq_zero_iff] at hlength
      exact h.1 hlength
    · intro hmem
      obtain ⟨c, hc, hslash⟩ := List.mem_flatMap.1 hmem
      rw [Url.encodeChar] at hslash
      split at hslash
      · exact slash_notMem_escapeChar c hslash
      · exact h.2 (List.mem_singleton.1 hslash ▸ hc)

/-- Text becomes the key of its segments, each of them escaped. -/
theorem toList_keyOfText (text : String) :
    (keyOfText text).toList = joined ((keyParts text.toList).map keySegment) := by
  rw [keyOfText, String.toList_ofList]
  rfl

/-- Text with plain segments becomes the key of these segments. -/
theorem keyOfText_of_plain {text : String} (h : ∀ segment ∈ keyParts text.toList, IsPlain segment) :
    (keyOfText text).toList = joined (keyParts text.toList) := by
  rw [toList_keyOfText, List.map_congr_left fun segment hmem ↦ keySegment_of_plain (h segment hmem),
    List.map_id']

theorem ne_nil_of_checkSegments {path : String} {segments : List (List Char)}
    (h : checkSegments path segments = .ok ()) : ∀ segment ∈ segments, segment ≠ [] := by
  induction segments with
  | nil => exact fun _ hmem ↦ absurd hmem List.not_mem_nil
  | cons segment rest ih =>
    rw [checkSegments] at h
    split at h
    · cases h
    · next hne =>
      split at h
      · cases h
      · exact List.forall_mem_cons.2 ⟨hne, ih h⟩

theorem isKey_of_keyOfPath {path key : String} (h : keyOfPath path = .ok key) :
    IsKey key.toList := by
  unfold keyOfPath at h
  extract_lets stripped inner at h
  split_ifs at h
  · cases h
    rfl
  · cases hcheck : checkSegments path (Url.splitOnChar '/' inner) with
    | error e =>
      rw [hcheck] at h
      cases h
    | ok _ =>
      rw [hcheck] at h
      cases h
      rw [String.toList_ofList]
      exact isKey_of_splitOn (ne_nil_of_checkSegments hcheck)

theorem isKey_of_keyOfUrlPath {path key : String} (h : keyOfUrlPath path = .ok key) :
    IsKey key.toList := by
  unfold keyOfUrlPath at h
  extract_lets bytes at h
  split at h
  · cases h
  · exact isKey_of_keyOfPath h

end CommitCoordinator.Storage
