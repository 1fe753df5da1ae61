import CommitCoordinator.Json.Reader
import CommitCoordinator.Proofs.Text.Utf8

/-!
# Reading back the scalars of JSON

What the printer writes for a string or an integer is read back as it was, whatever follows a
string and unless a number goes on behind an integer.
-/

namespace CommitCoordinator.Json

open Data Text

theorem symbols_utf8EncodeChar (c : Char) (rest : List UInt8) :
    symbols (String.utf8EncodeChar c ++ rest) = some c :: symbols rest := by
  obtain ⟨first, more, hencode, hunit⟩ := utf8Unit_utf8EncodeChar c
  rw [hencode, List.cons_append, symbols, hunit rest]
  simp only [List.drop_left]

/-- The symbols of the bytes of a text are its characters. -/
theorem symbols_toUTF8 (text : String) : symbols text.toUTF8.toList = symbolsOfText text := by
  have hsymbols (cs : List Char) : symbols (cs.flatMap String.utf8EncodeChar) = cs.map some := by
    induction cs with
    | nil => exact symbols.eq_1
    | cons c rest ih => rw [List.flatMap_cons, symbols_utf8EncodeChar, ih, List.map_cons]
  rw [toUTF8_toList, hsymbols, symbolsOfText]

/-! ## Strings -/

/-- Puts a character in front of the rest of a string. -/
def withFront (c : Char) (read : Option (List Char) × List Symbol) :
    Option (List Char) × List Symbol :=
  (read.1.map (c :: ·), read.2)

theorem hexOf?_hexDigit (value : Fin 16) : hexOf? (some (hexDigit value)) = some value.val := by
  rw [hexOf?, hexValue?_hexDigit, Option.map_some]

theorem readString_short {escape c : Char} (hescape : shortEscape? (some escape) = some c)
    (hu : escape ≠ 'u') (fuel : Nat) (rest : List Symbol) :
    readString (fuel + 1) (some '\\' :: some escape :: rest) =
      (readString fuel rest).map (withFront c) := by
  rw [readString]
  · rw [hescape]
    cases readString fuel rest <;> rfl
  · intro h
    cases h
    exact hu rfl

theorem readString_coded {code : Nat} {digits rest : List Symbol}
    (hcode : readCode (digits ++ rest) = some (code, rest)) (hsurrogate : code < 0xD800)
    (fuel : Nat) :
    readString (fuel + 1) (some '\\' :: some 'u' :: (digits ++ rest)) =
      (readString fuel rest).map (withFront (Char.ofNat code)) := by
  have hhigh : isHighSurrogate code = false := by
    simp only [isHighSurrogate, Bool.and_eq_false_iff, decide_eq_false_iff_not]
    omega
  have hlow : isLowSurrogate code = false := by
    simp only [isLowSurrogate, Bool.and_eq_false_iff, decide_eq_false_iff_not]
    omega
  have hread : readCoded code rest = (some (Char.ofNat code), rest) := by
    simp only [readCoded, hhigh, hlow, Bool.false_eq_true, if_false]
  rw [readString, hcode]
  simp only [Option.bind_eq_bind, Option.bind_some, hread]
  rcases readString fuel rest with _ | ⟨_ | cs, rest⟩ <;> rfl

theorem readString_plain {c : Char} (hquote : c ≠ '"') (hslash : c ≠ '\\') (hcode : 32 ≤ c.toNat)
    (fuel : Nat) (rest : List Symbol) :
    readString (fuel + 1) (some c :: rest) = (readString fuel rest).map (withFront c) := by
  have hplain : ¬ (c = '\\' ∨ c.toNat < 32) := by
    rintro (h | h)
    · exact hslash h
    · omega
  rw [readString]
  · rw [if_neg hplain]
    cases readString fuel rest <;> rfl
  · intro h
    cases h
    exact hquote rfl
  · exact fun _ _ ↦ hslash
  · exact fun _ _ _ ↦ hslash

/-- The four digits of a control character. -/
def lowDigits (code : Nat) : List Symbol :=
  [some '0', some '0', some (hexDigit (hexPlace code 1)), some (hexDigit (hexPlace code 0))]

theorem readCode_lowDigits {code : Nat} (h : code < 32) (rest : List Symbol) :
    readCode (lowDigits code ++ rest) = some (code, rest) := by
  have hzero : hexOf? (some '0') = some 0 := rfl
  have hvalue : ∀ code < 32,
      (0 * 16 + 0) * 256 + (hexPlace code 1).val * 16 + (hexPlace code 0).val = code := by
    decide
  simp only [lowDigits, List.cons_append, List.nil_append, readCode, hzero, hexOf?_hexDigit,
    Option.bind_eq_bind, Option.bind_some, hvalue code h]
  rfl

/-- A character is read back from its escape before the rest of its string. -/
theorem readString_escapeChar (c : Char) (fuel : Nat) (rest : List Symbol) :
    readString (fuel + 1) ((escapeChar c).map some ++ rest) =
      (readString fuel rest).map (withFront c) := by
  unfold escapeChar
  split_ifs with h1 h2 h3 h4 h5 h6 h7 h8
  · subst h1
    exact readString_short rfl (by decide) fuel rest
  · subst h2
    exact readString_short rfl (by decide) fuel rest
  · subst h3
    exact readString_short rfl (by decide) fuel rest
  · subst h4
    exact readString_short rfl (by decide) fuel rest
  · subst h5
    exact readString_short rfl (by decide) fuel rest
  · subst h6
    exact readString_short rfl (by decide) fuel rest
  · subst h7
    exact readString_short rfl (by decide) fuel rest
  · have hcoded := readString_coded (readCode_lowDigits h8 rest) (by omega) fuel
    rw [Char.ofNat_toNat] at hcoded
    exact hcoded
  · exact readString_plain h1 h2 (Nat.le_of_not_lt h8) fuel rest

/-- A printed string is read back up to its closing quote. -/
theorem readString_flatMap (cs : List Char) {fuel : Nat} (hfuel : cs.length < fuel)
    (rest : List Symbol) :
    readString fuel ((cs.flatMap escapeChar).map some ++ some '"' :: rest) =
      some (some cs, rest) := by
  induction cs generalizing fuel with
  | nil =>
    obtain ⟨fuel, rfl⟩ := Nat.exists_eq_add_one.2 hfuel
    rfl
  | cons c cs ih =>
    obtain ⟨fuel, rfl⟩ := Nat.exists_eq_add_one.2 (Nat.zero_lt_of_lt hfuel)
    rw [List.flatMap_cons, List.map_append, List.append_assoc, readString_escapeChar,
      ih (Nat.lt_of_succ_lt_succ hfuel)]
    rfl

/-! ## Integers -/

/-- The values of the decimal digits of a number. -/
def digitValues (n : Nat) : List Nat :=
  (Nat.toDigits 10 n).map fun c ↦ c.toNat - 48

theorem digitOf?_of_isDigit {c : Char} (h : c.isDigit = true) :
    digitOf? (some c) = some (c.toNat - 48) := by
  have hdigit : '0' ≤ c ∧ c ≤ '9' := by
    rw [Char.isDigit, Bool.and_eq_true, decide_eq_true_eq, decide_eq_true_eq] at h
    exact h
  exact if_pos hdigit

/-- Digits are read up to the first symbol that is none. -/
theorem spanDigits_append {cs : List Char} (hdigits : ∀ c ∈ cs, c.isDigit = true)
    {rest : List Symbol} (hrest : ∀ symbol ∈ rest.head?, digitOf? symbol = none) :
    spanDigits (cs.map some ++ rest) = (cs.map fun c ↦ c.toNat - 48, rest) := by
  induction cs with
  | nil =>
    cases rest with
    | nil => rfl
    | cons symbol rest =>
      rw [List.map_nil, List.nil_append, spanDigits, hrest symbol rfl]
      rfl
  | cons c cs ih =>
    have htail := ih fun other hother ↦ hdigits other (List.mem_cons_of_mem c hother)
    rw [List.map_cons, List.cons_append, spanDigits,
      digitOf?_of_isDigit (hdigits c List.mem_cons_self)]
    simp only [htail, List.map_cons]

theorem ofDigits_digitValues (n : Nat) : ofDigits (digitValues n) = n := by
  calc
    ofDigits (digitValues n) =
        (Nat.toDigits 10 n).foldl (fun total c ↦ total * 10 + (c.toNat - 48)) 0 :=
      List.foldl_map
    _ = Nat.ofDigitChars 10 (Nat.toDigits 10 n) 0 := by
      simp only [Nat.ofDigitChars_eq_foldl, Nat.mul_comm 10]
      rfl
    _ = n := Nat.ofDigitChars_ten_toDigits

/-- Only zero begins with a zero. -/
theorem digitValues_cases (n : Nat) :
    digitValues n = [0] ∨ ∃ digit rest, digitValues n = (digit + 1) :: rest := by
  induction n using Nat.strongRecOn with
  | ind n ih =>
    have hsingle : ∀ digit < 10, (Nat.digitChar digit).toNat - 48 = digit := by decide
    by_cases hn : n < 10
    · rw [digitValues, Nat.toDigits_of_lt_base hn, List.map_singleton, hsingle n hn]
      cases n with
      | zero => exact .inl rfl
      | succ digit => exact .inr ⟨digit, [], rfl⟩
    · have hsplit : digitValues n =
          digitValues (n / 10) ++ [(Nat.digitChar (n % 10)).toNat - 48] := by
        rw [digitValues, Nat.toDigits_of_base_le (by decide) (by omega), List.map_append,
          List.map_singleton]
        rfl
      rcases ih (n / 10) (by omega) with hzero | ⟨digit, rest, hdigits⟩
      · have hvalue := ofDigits_digitValues (n / 10)
        rw [hzero] at hvalue
        change 0 = n / 10 at hvalue
        omega
      · exact .inr ⟨digit, rest ++ _, by rw [hsplit, hdigits, List.cons_append]⟩

/-- A number ends where no digit, point or exponent follows. -/
def EndsNumber (rest : List Symbol) : Prop :=
  ∀ symbol ∈ rest.head?, digitOf? symbol = none ∧ symbol ≠ some '.' ∧ symbol ≠ some 'e' ∧
    symbol ≠ some 'E'

theorem EndsNumber.readFraction {rest : List Symbol} (h : EndsNumber rest) :
    readFraction rest = some (none, rest) := by
  unfold Json.readFraction
  split
  · exact absurd rfl (h _ rfl).2.1
  · rfl

theorem EndsNumber.readExponent {rest : List Symbol} (h : EndsNumber rest) :
    readExponent rest = some (none, rest) := by
  unfold Json.readExponent
  split
  · next mark tail =>
    obtain ⟨-, -, he, hE⟩ := h (some mark) rfl
    exact if_neg (by rintro (rfl | rfl) <;> contradiction)
  · rfl

/-- Reads a number after its sign. -/
def readUnsigned (negative : Bool) (text : List Symbol) : Option (Value × List Symbol) := do
  let (whole, text) := spanDigits text
  match whole with
  | [] => none
  | 0 :: _ :: _ => none
  | _ =>
    let (fraction, text) ← readFraction text
    let (exponent, text) ← readExponent text
    return (numberValue negative whole fraction exponent, text)

theorem readNumber_minus (text : List Symbol) :
    readNumber (some '-' :: text) = readUnsigned true text := rfl

theorem readNumber_unsigned {text : List Symbol} (h : ∀ rest, text ≠ some '-' :: rest) :
    readNumber text = readUnsigned false text := by
  unfold readNumber
  split
  next sign =>
    split at sign
    · next rest => exact absurd rfl (h rest)
    · cases sign
      rfl

theorem readUnsigned_digits (negative : Bool) (n : Nat) {rest : List Symbol}
    (hrest : EndsNumber rest) :
    readUnsigned negative ((Nat.toDigits 10 n).map some ++ rest) =
      some (numberValue negative (digitValues n) none none, rest) := by
  have hspan : spanDigits ((Nat.toDigits 10 n).map some ++ rest) = (digitValues n, rest) :=
    spanDigits_append (fun c hc ↦ Nat.isDigit_of_mem_toDigits (by decide) (by decide) hc)
      fun symbol hsymbol ↦ (hrest symbol hsymbol).1
  have hread : (do
      let (fraction, text) ← readFraction rest
      let (exponent, text) ← readExponent text
      return (numberValue negative (digitValues n) fraction exponent, text)) =
        some (numberValue negative (digitValues n) none none, rest) := by
    rw [hrest.readFraction]
    change (readExponent rest).bind _ = _
    rw [hrest.readExponent]
    rfl
  rw [readUnsigned, hspan]
  rcases digitValues_cases n with hzero | ⟨digit, digits, hdigits⟩
  · rw [hzero] at hread ⊢
    exact hread
  · rw [hdigits] at hread ⊢
    exact hread

/-- The integers that are read as they are written. -/
def IsExact (value : Int) : Prop :=
  Int64.minValue.toInt ≤ value ∧ value < UInt64.size

theorem numberValue_of_nat {n : Nat} (h : n < UInt64.size) :
    numberValue false (digitValues n) none none = .int n := by
  rw [numberValue, ofDigits_digitValues]
  exact if_pos (decide_eq_true h)

theorem numberValue_of_neg {n : Nat} (hpos : n ≠ 0) (h : Int64.minValue.toInt ≤ -(n : Int)) :
    numberValue true (digitValues n) none none = .int (-(n : Int)) := by
  have hfloat : (true && decide (n = 0)) = false := decide_eq_false hpos
  rw [numberValue, ofDigits_digitValues]
  simp only [Option.isSome_none, Bool.or_false, hfloat, Bool.not_false, Bool.not_true,
    Bool.and_false, Bool.false_and, Bool.false_eq_true, if_false, Bool.true_and,
    decide_eq_true_eq]
  exact if_pos h

/-- A number begins with a digit. -/
theorem toDigits_eq_cons (n : Nat) :
    ∃ c digits, Nat.toDigits 10 n = c :: digits ∧ c.isDigit = true := by
  have hnonempty : Nat.toDigits 10 n ≠ [] := Nat.toDigits_ne_nil
  obtain ⟨c, digits, hdigits⟩ := List.exists_cons_of_ne_nil hnonempty
  refine ⟨c, digits, hdigits, ?_⟩
  exact Nat.isDigit_of_mem_toDigits (by decide) (by decide) (hdigits ▸ List.mem_cons_self)

theorem toList_repr_ofNat (n : Nat) : (Int.repr (.ofNat n)).toList = Nat.toDigits 10 n :=
  Nat.toList_repr

theorem toList_repr_negSucc (n : Nat) :
    (Int.repr (.negSucc n)).toList = '-' :: Nat.toDigits 10 (n + 1) := by
  rw [Int.repr, String.toList_append, Nat.toList_repr]
  rfl

/-- A printed integer is read back unless a number goes on behind it. -/
theorem readNumber_printInt {value : Int} (h : IsExact value) {rest : List Char}
    (hrest : EndsNumber (rest.map some)) :
    readNumber ((printInt value rest).map some) = some (.int value, rest.map some) := by
  rw [printInt, List.map_append, Int.toString_eq_repr]
  cases value with
  | ofNat n =>
    have hsize : n < UInt64.size := Int.ofNat_lt.1 h.2
    have hsign : ∀ tail, (Nat.toDigits 10 n).map some ++ rest.map some ≠ some '-' :: tail := by
      intro tail htail
      obtain ⟨c, digits, hdigits, hdigit⟩ := toDigits_eq_cons n
      rw [hdigits] at htail
      cases htail
      cases hdigit
    rw [toList_repr_ofNat, readNumber_unsigned hsign, readUnsigned_digits false n hrest,
      numberValue_of_nat hsize]
    rfl
  | negSucc n =>
    rw [toList_repr_negSucc, List.map_cons, List.cons_append, readNumber_minus,
      readUnsigned_digits true (n + 1) hrest, numberValue_of_neg (Nat.succ_ne_zero n) h.1]
    rfl

end CommitCoordinator.Json
