import CommitCoordinator.Text.Utf8
import Mathlib.Tactic.SplitIfs

/-!
# Reading back UTF-8

A character is encoded as one to four bytes, and the reader finds the character in them whatever
bytes follow.
-/

namespace CommitCoordinator.Text

/-- The bytes that may come second in an encoding. -/
def secondRange (first : UInt8) : UInt8 × UInt8 :=
  if first = 0xE0 then (0xA0, 0xBF) else if first = 0xED then (0x80, 0x9F)
  else if first = 0xF0 then (0x90, 0xBF) else if first = 0xF4 then (0x80, 0x8F)
  else (0x80, 0xBF)

/-- The numbers of a first byte and one that may come second after it. -/
structure IsSecond (first second : Nat) : Prop where
  lower : 0x80 ≤ second
  upper : second ≤ 0xBF
  afterE0 : first = 0xE0 → 0xA0 ≤ second
  afterED : first = 0xED → second ≤ 0x9F
  afterF0 : first = 0xF0 → 0x90 ≤ second
  afterF4 : first = 0xF4 → second ≤ 0x8F

theorem IsSecond.mem_range {a b : UInt8} (h : IsSecond a.toNat b.toNat) :
    ((secondRange a).1 ≤ b && b ≤ (secondRange a).2) = true := by
  obtain ⟨hlower, hupper, hE0, hED, hF0, hF4⟩ := h
  have hle (x : UInt8) : x ≤ b ↔ x.toNat ≤ b.toNat := UInt8.le_iff_toNat_le
  have hge (x : UInt8) : b ≤ x ↔ b.toNat ≤ x.toNat := UInt8.le_iff_toNat_le
  rw [Bool.and_eq_true, decide_eq_true_eq, decide_eq_true_eq, hle, hge, secondRange]
  split_ifs with h0 h1 h2 h3
  · exact ⟨hE0 (congrArg UInt8.toNat h0), hupper⟩
  · exact ⟨hlower, hED (congrArg UInt8.toNat h1)⟩
  · exact ⟨hF0 (congrArg UInt8.toNat h2), hupper⟩
  · exact ⟨hlower, hF4 (congrArg UInt8.toNat h3)⟩
  · exact ⟨hlower, hupper⟩

theorem isBetween_iff {a low high : UInt8} :
    (low ≤ a && a ≤ high) = true ↔ low.toNat ≤ a.toNat ∧ a.toNat ≤ high.toNat := by
  rw [Bool.and_eq_true, decide_eq_true_eq, decide_eq_true_eq]
  rfl

theorem isContinuation_iff {a : UInt8} :
    isContinuation a = true ↔ 0x80 ≤ a.toNat ∧ a.toNat ≤ 0xBF :=
  isBetween_iff

theorem not_isBetween {a low high : UInt8} (h : high.toNat < a.toNat) :
    ¬ (low ≤ a && a ≤ high) = true :=
  fun hbetween ↦ absurd (isBetween_iff.1 hbetween).2 (Nat.not_le.2 h)

theorem not_isAscii {a : UInt8} (h : 0x80 ≤ a.toNat) : ¬ a < 0x80 :=
  fun hlt ↦ absurd (UInt8.lt_iff_toNat_lt.1 hlt) (Nat.not_lt.2 h)

theorem utf8Unit_one {a : UInt8} (ha : a.toNat < 0x80) (rest : List UInt8) :
    utf8Unit a rest = .char (Char.ofNat a.toNat) 0 :=
  if_pos (UInt8.lt_iff_toNat_lt.2 ha)

theorem utf8Unit_two {a b : UInt8} (ha : 0xC2 ≤ a.toNat ∧ a.toNat ≤ 0xDF)
    (hb : IsSecond a.toNat b.toNat) (rest : List UInt8) :
    utf8Unit a (b :: rest) = .char (Char.ofNat (extendCode (a.toNat % 32) b)) 1 := by
  have hascii : ¬ a < 0x80 := not_isAscii (by omega)
  have htwo : (0xC2 ≤ a && a ≤ 0xDF) = true := isBetween_iff.2 ha
  unfold utf8Unit
  exact (if_neg hascii).trans ((if_pos htwo).trans (if_pos hb.mem_range))

theorem utf8Unit_three {a b c : UInt8} (ha : 0xE0 ≤ a.toNat ∧ a.toNat ≤ 0xEF)
    (hb : IsSecond a.toNat b.toNat) (hc : isContinuation c = true) (rest : List UInt8) :
    utf8Unit a (b :: c :: rest) =
      .char (Char.ofNat (extendCode (extendCode (a.toNat % 16) b) c)) 2 := by
  have hascii : ¬ a < 0x80 := not_isAscii (by omega)
  have htwo : ¬ (0xC2 ≤ a && a ≤ 0xDF) = true := not_isBetween ha.1
  have hthree : (0xE0 ≤ a && a ≤ 0xEF) = true := isBetween_iff.2 ha
  unfold utf8Unit
  exact (if_neg hascii).trans ((if_neg htwo).trans
    ((if_pos hthree).trans ((if_pos hb.mem_range).trans (if_pos hc))))

theorem utf8Unit_four {a b c d : UInt8} (ha : 0xF0 ≤ a.toNat ∧ a.toNat ≤ 0xF4)
    (hb : IsSecond a.toNat b.toNat) (hc : isContinuation c = true)
    (hd : isContinuation d = true) (rest : List UInt8) :
    utf8Unit a (b :: c :: d :: rest) =
      .char (Char.ofNat (extendCode (extendCode (extendCode (a.toNat % 8) b) c) d)) 3 := by
  have hascii : ¬ a < 0x80 := not_isAscii (by omega)
  have htwo : ¬ (0xC2 ≤ a && a ≤ 0xDF) = true :=
    not_isBetween (Nat.lt_of_lt_of_le (by decide) ha.1)
  have hthree : ¬ (0xE0 ≤ a && a ≤ 0xEF) = true := not_isBetween ha.1
  have hfour : (0xF0 ≤ a && a ≤ 0xF4) = true := isBetween_iff.2 ha
  unfold utf8Unit
  exact (if_neg hascii).trans ((if_neg htwo).trans ((if_neg hthree).trans
    ((if_pos hfour).trans ((if_pos hb.mem_range).trans ((if_pos hc).trans (if_pos hd))))))

theorem toNat_ofNat_add {n start : Nat} (h : n + start < 256) :
    (UInt8.ofNat (n + start)).toNat = n + start :=
  UInt8.toNat_ofNat_of_lt h

theorem isContinuation_ofNat (n : Nat) : isContinuation (UInt8.ofNat (n % 64 + 128)) = true := by
  rw [isContinuation_iff, toNat_ofNat_add (by omega)]
  omega

theorem extendCode_ofNat (code n : Nat) :
    extendCode code (UInt8.ofNat (n % 64 + 128)) = code * 64 + n % 64 := by
  rw [extendCode, toNat_ofNat_add (by omega)]
  omega

/-- The first unit of the encoding of a character is the character. -/
theorem utf8Unit_utf8EncodeChar (c : Char) : ∃ first more,
    String.utf8EncodeChar c = first :: more ∧
      ∀ rest, utf8Unit first (more ++ rest) = .char c more.length := by
  have hvalid : c.val.toNat < 0xD800 ∨ 0xDFFF < c.val.toNat ∧ c.val.toNat < 0x110000 := c.valid
  have hchar : Char.ofNat c.val.toNat = c := Char.ofNat_toNat c
  unfold String.utf8EncodeChar
  generalize hn : c.val.toNat = n at *
  dsimp only
  split_ifs with hone htwo hthree
  · refine ⟨_, _, rfl, fun rest ↦ ?_⟩
    have hfirst : (UInt8.ofNat n).toNat = n := UInt8.toNat_ofNat_of_lt (by change n < 256; omega)
    rw [utf8Unit_one (by omega), hfirst, hchar]
    rfl
  · refine ⟨_, _, rfl, fun rest ↦ ?_⟩
    have hfirst : (UInt8.ofNat (n / 64 % 32 + 192)).toNat = n / 64 % 32 + 192 :=
      toNat_ofNat_add (by omega)
    have hsecond : (UInt8.ofNat (n % 64 + 128)).toNat = n % 64 + 128 :=
      toNat_ofNat_add (by omega)
    have hcode : (n / 64 % 32 + 192) % 32 * 64 + n % 64 = n := by omega
    refine (utf8Unit_two (by omega) ?_ _).trans ?_
    · rw [hfirst, hsecond]
      constructor <;> omega
    · rw [hfirst, extendCode_ofNat, hcode, hchar]
      rfl
  · refine ⟨_, _, rfl, fun rest ↦ ?_⟩
    have hfirst : (UInt8.ofNat (n / 4096 % 16 + 224)).toNat = n / 4096 % 16 + 224 :=
      toNat_ofNat_add (by omega)
    have hsecond : (UInt8.ofNat (n / 64 % 64 + 128)).toNat = n / 64 % 64 + 128 :=
      toNat_ofNat_add (by omega)
    have hcode : ((n / 4096 % 16 + 224) % 16 * 64 + n / 64 % 64) * 64 + n % 64 = n := by omega
    refine (utf8Unit_three (by omega) ?_ (isContinuation_ofNat n) _).trans ?_
    · rw [hfirst, hsecond]
      constructor <;> omega
    · rw [hfirst, extendCode_ofNat, extendCode_ofNat, hcode, hchar]
      rfl
  · refine ⟨_, _, rfl, fun rest ↦ ?_⟩
    have hfirst : (UInt8.ofNat (n / 262144 % 8 + 240)).toNat = n / 262144 % 8 + 240 :=
      toNat_ofNat_add (by omega)
    have hsecond : (UInt8.ofNat (n / 4096 % 64 + 128)).toNat = n / 4096 % 64 + 128 :=
      toNat_ofNat_add (by omega)
    have hcode : (((n / 262144 % 8 + 240) % 8 * 64 + n / 4096 % 64) * 64 + n / 64 % 64) * 64 +
        n % 64 = n := by omega
    refine (utf8Unit_four (by omega) ?_ (isContinuation_ofNat (n / 64)) (isContinuation_ofNat n)
      _).trans ?_
    · rw [hfirst, hsecond]
      constructor <;> omega
    · rw [hfirst, extendCode_ofNat, extendCode_ofNat, extendCode_ofNat, hcode, hchar]
      rfl

/-- Reading the bytes of characters gives the characters back. -/
theorem decodeLossy_utf8EncodeChar (cs : List Char) :
    decodeLossy (cs.flatMap String.utf8EncodeChar) = cs := by
  induction cs with
  | nil => exact decodeLossy.eq_1
  | cons c rest ih =>
    obtain ⟨first, more, hencode, hunit⟩ := utf8Unit_utf8EncodeChar c
    rw [List.flatMap_cons, hencode, List.cons_append, decodeLossy, hunit]
    change c :: decodeLossy ((more ++ rest.flatMap String.utf8EncodeChar).drop more.length) = _
    rw [List.drop_left, ih]

theorem utf8FaultFrom_utf8EncodeChar (cs : List Char) (offset : Nat) :
    utf8FaultFrom offset (cs.flatMap String.utf8EncodeChar) = none := by
  induction cs generalizing offset with
  | nil => exact utf8FaultFrom.eq_1 offset
  | cons c rest ih =>
    obtain ⟨first, more, hencode, hunit⟩ := utf8Unit_utf8EncodeChar c
    rw [List.flatMap_cons, hencode, List.cons_append, utf8FaultFrom, hunit]
    change utf8FaultFrom _ ((more ++ rest.flatMap String.utf8EncodeChar).drop more.length) = none
    rw [List.drop_left, ih]

/-- The bytes of characters have no fault. -/
theorem utf8Fault?_utf8EncodeChar (cs : List Char) :
    utf8Fault? (cs.flatMap String.utf8EncodeChar) = none :=
  utf8FaultFrom_utf8EncodeChar cs 0

/-- The byte of a line break stands for nothing else. -/
theorem eq_newline_of_mem {c : Char} (h : 0x0A ∈ String.utf8EncodeChar c) : c = '\n' := by
  have hvalid : c.val.toNat < 0xD800 ∨ 0xDFFF < c.val.toNat ∧ c.val.toNat < 0x110000 := c.valid
  have hchar : Char.ofNat c.val.toNat = c := Char.ofNat_toNat c
  have hbyte {byte : Nat} (hbyte : byte < 256) (heq : (0x0A : UInt8) = UInt8.ofNat byte) :
      byte = 10 := by
    have hnumber : (UInt8.ofNat byte).toNat = byte := UInt8.toNat_ofNat_of_lt hbyte
    rw [← hnumber, ← heq]
    rfl
  unfold String.utf8EncodeChar at h
  generalize hn : c.val.toNat = n at *
  dsimp only at h
  split_ifs at h with hone htwo hthree <;>
    simp only [List.mem_cons, List.not_mem_nil, or_false] at h
  · rw [← hchar, hbyte (by omega) h]
  · rcases h with h | h <;> exact absurd (hbyte (by omega) h) (by omega)
  · rcases h with h | h | h <;> exact absurd (hbyte (by omega) h) (by omega)
  · rcases h with h | h | h | h <;> exact absurd (hbyte (by omega) h) (by omega)

/-! ## The bytes of a text -/

theorem toList_loop (bytes : ByteArray) (i : Nat) (front : List UInt8) :
    ByteArray.toList.loop bytes i front = front.reverse ++ bytes.data.toList.drop i := by
  induction i, front using ByteArray.toList.loop.induct bytes with
  | case1 i front hi ih =>
    have hlength : i < bytes.data.toList.length := hi
    have hget : bytes.get! i = bytes.data.toList[i] := getElem!_pos bytes.data i hi
    rw [ByteArray.toList.loop, if_pos hi, ih, List.drop_eq_getElem_cons hlength, hget,
      List.reverse_cons, List.append_assoc, List.singleton_append]
  | case2 i front hi =>
    have hlength : bytes.data.toList.length ≤ i := Nat.le_of_not_lt hi
    rw [ByteArray.toList.loop, if_neg hi, List.drop_eq_nil_of_le hlength, List.append_nil]

theorem toList_eq_data (bytes : ByteArray) : bytes.toList = bytes.data.toList :=
  toList_loop bytes 0 []

/-- The bytes of a text are those of its characters in order. -/
theorem toUTF8_toList (text : String) :
    text.toUTF8.toList = text.toList.flatMap String.utf8EncodeChar := by
  rw [toList_eq_data, String.toUTF8_eq_toByteArray, ← String.utf8Encode_toList]
  exact List.toList_data_toByteArray

end CommitCoordinator.Text
