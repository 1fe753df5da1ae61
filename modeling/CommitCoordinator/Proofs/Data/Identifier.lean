import CommitCoordinator.Proofs.Data.Lawful

/-!
# Reading back identifiers

The written form of an identifier has its digits in five groups, and the reader puts them together
again.
-/

namespace CommitCoordinator.Uuid

open Text

theorem length_simpleChars (id : Uuid) : id.simpleChars.length = 32 := by
  rw [simpleChars, List.length_map, Vector.length_toList]

theorem ofSimple?_simpleChars (id : Uuid) : ofSimple? id.simpleChars = some id := by
  have hdigits (digits : List (Fin 16)) : (digits.map hexDigit).mapM hexValue? = some digits := by
    induction digits with
    | nil => rfl
    | cons digit rest ih =>
      rw [List.map_cons, List.mapM_cons, hexValue?_hexDigit, ih]
      rfl
  have hsize : id.digits.toList.toArray.size = 32 := by
    rw [List.size_toArray, Vector.length_toList]
  rw [ofSimple?, simpleChars, hdigits]
  exact dif_pos hsize

theorem drop_group {group : List Char} {n : Nat} (h : group.length = n) (rest : List Char) :
    (group ++ '-' :: rest).drop (n + 1) = rest := by
  rw [List.drop_append, List.drop_of_length_le (by omega), h, Nat.add_sub_cancel_left]
  rfl

theorem getElem?_group {group : List Char} {n : Nat} (h : group.length = n) (rest : List Char) :
    (group ++ '-' :: rest)[n]? = some '-' := by
  rw [List.getElem?_append_right (Nat.le_of_eq h), h, Nat.sub_self]
  rfl

/-- Groups of digits with hyphens between them are the digits of the groups. -/
theorem ofHyphenated?_groups {a b c d e : List Char} (ha : a.length = 8) (hb : b.length = 4)
    (hc : c.length = 4) (hd : d.length = 4) (he : e.length = 12) :
    ofHyphenated? (a ++ '-' :: b ++ '-' :: c ++ '-' :: d ++ '-' :: e) =
      ofSimple? (a ++ b ++ c ++ d ++ e) := by
  have htext : a ++ '-' :: b ++ '-' :: c ++ '-' :: d ++ '-' :: e =
      a ++ '-' :: (b ++ '-' :: (c ++ '-' :: (d ++ '-' :: e))) := by
    simp only [List.append_assoc, List.cons_append]
  rw [htext]
  have hlength : (a ++ '-' :: (b ++ '-' :: (c ++ '-' :: (d ++ '-' :: e)))).length = 36 := by
    simp only [List.length_append, List.length_cons, ha, hb, hc, hd, he]
  generalize hall : a ++ '-' :: (b ++ '-' :: (c ++ '-' :: (d ++ '-' :: e))) = text at *
  have h9 : text.drop 9 = b ++ '-' :: (c ++ '-' :: (d ++ '-' :: e)) := hall ▸ drop_group ha _
  have h14 : text.drop 14 = c ++ '-' :: (d ++ '-' :: e) := by
    calc
      text.drop 14 = (text.drop 9).drop 5 := by rw [List.drop_drop]
      _ = c ++ '-' :: (d ++ '-' :: e) := by rw [h9, drop_group hb]
  have h19 : text.drop 19 = d ++ '-' :: e := by
    calc
      text.drop 19 = (text.drop 14).drop 5 := by rw [List.drop_drop]
      _ = d ++ '-' :: e := by rw [h14, drop_group hc]
  have h24 : text.drop 24 = e := by
    calc
      text.drop 24 = (text.drop 19).drop 5 := by rw [List.drop_drop]
      _ = e := by rw [h19, drop_group hd]
  have hhyphens : text[8]? = some '-' ∧ text[13]? = some '-' ∧ text[18]? = some '-' ∧
      text[23]? = some '-' := by
    refine ⟨hall ▸ getElem?_group ha _, ?_, ?_, ?_⟩
    · rw [← List.getElem?_drop (i := 9) (j := 4), h9, getElem?_group hb]
    · rw [← List.getElem?_drop (i := 14) (j := 4), h14, getElem?_group hc]
    · rw [← List.getElem?_drop (i := 19) (j := 4), h19, getElem?_group hd]
  rw [ofHyphenated?, if_pos ⟨hlength, hhyphens⟩, h9, h14, h19, h24, List.take_left' hb,
    List.take_left' hc, List.take_left' hd, ← hall, List.take_left' ha]

theorem ofHyphenated?_hyphenatedChars (id : Uuid) :
    ofHyphenated? id.hyphenatedChars = some id := by
  have hlength := id.length_simpleChars
  rw [hyphenatedChars, ofHyphenated?_groups]
  · rw [← List.take_add, ← List.take_add, ← List.take_add, List.take_append_drop,
      ofSimple?_simpleChars]
  all_goals simp [hlength]

theorem length_hyphenatedChars (id : Uuid) : id.hyphenatedChars.length = 36 := by
  simp [hyphenatedChars, id.length_simpleChars]

/-- An identifier is read back from its written form. -/
theorem parse?_hyphenated (id : Uuid) : parse? id.hyphenated = some id := by
  have hlength := id.length_hyphenatedChars
  have hsimple : ¬ id.hyphenatedChars.length = 32 := by
    rw [hlength]
    decide
  rw [parse?, hyphenated, String.toList_ofList]
  exact (if_neg hsimple).trans ((if_pos hlength).trans id.ofHyphenated?_hyphenatedChars)

end CommitCoordinator.Uuid

namespace CommitCoordinator.Data

theorem uuidOfText_hyphenated (id : Uuid) : uuidOfText id.hyphenated = .ok id := by
  rw [uuidOfText, id.parse?_hyphenated]

theorem Codec.uuid_lawful {levels : Nat} : Codec.uuid.Lawful levels where
  plain id := .string id.hyphenated
  decode_encode id := by
    have htext : decodeText "a formatted UUID string" (.string id.hyphenated) =
      .ok id.hyphenated := rfl
    simp only [Codec.uuid, htext, ← uuidOfText_hyphenated id]
    rfl

end CommitCoordinator.Data
