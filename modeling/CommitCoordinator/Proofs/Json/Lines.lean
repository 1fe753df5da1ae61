import CommitCoordinator.Proofs.Data.Lawful

/-!
# Documents on one line

The compact form of a value has no line breaks, since those in strings are escaped, so it fits on
one line of a stream. Blanks behind it, such as those that belong to the end of the line, do not
matter when it is read back.
-/

namespace CommitCoordinator.Json

open Data Text

/-! ## Text behind a value -/

theorem printScalar_append (value : Value) (rest more : List Char) :
    printScalar value (rest ++ more) = printScalar value rest ++ more := by
  unfold printScalar
  split <;> simp only [printInt, printString, List.append_assoc, List.cons_append]

mutual

theorem print_append : ∀ (value : Value) (rest more : List Char),
    print value (rest ++ more) = print value rest ++ more
  | .list _ [], rest, more => by rw [print, print, List.cons_append, List.cons_append]
  | .list _ (item :: items), rest, more => by
    rw [print, print, List.cons_append, ← print_append, ← printItems_append, List.cons_append]
  | .map [], rest, more => by rw [print, print, List.cons_append, List.cons_append]
  | .map ((key, value) :: members), rest, more => by
    rw [print, print, List.cons_append, ← print_append, List.cons_append, ← print_append,
      ← printMembers_append, List.cons_append]
  | .null, rest, more | .bool _, rest, more | .int _, rest, more | .float, rest, more
  | .string _, rest, more | .loose _ _ _, rest, more | .tagged _, rest, more
  | .unreadable, rest, more | .broken, rest, more => by
    rw [print, print, printScalar_append] <;> nofun

theorem printItems_append : ∀ (items : List Value) (rest more : List Char),
    printItems items (rest ++ more) = printItems items rest ++ more
  | [], rest, more => by rw [printItems, printItems]
  | item :: items, rest, more => by
    rw [printItems, printItems, List.cons_append, ← print_append, ← printItems_append]

theorem printMembers_append : ∀ (members : List (Value × Value)) (rest more : List Char),
    printMembers members (rest ++ more) = printMembers members rest ++ more
  | [], rest, more => by rw [printMembers, printMembers]
  | (key, value) :: members, rest, more => by
    rw [printMembers, printMembers, List.cons_append, ← print_append, List.cons_append,
      ← print_append, ← printMembers_append]

end

/-! ## Line breaks -/

theorem hexDigit_ne_newline : ∀ value : Fin 16, hexDigit value ≠ '\n' := by
  decide

theorem newline_not_mem_escapeChar (c : Char) : '\n' ∉ escapeChar c := by
  unfold escapeChar
  split_ifs with hquote hslash hline
  all_goals simp [(hexDigit_ne_newline _).symm]
  exact fun h ↦ hline h.symm

theorem newline_not_mem_printString (text : String) {rest : List Char} (h : '\n' ∉ rest) :
    '\n' ∉ printString text rest := by
  have htext : '\n' ∉ text.toList.flatMap escapeChar := fun hmem ↦ by
    obtain ⟨c, -, hc⟩ := List.mem_flatMap.1 hmem
    exact newline_not_mem_escapeChar c hc
  simp [printString, htext, h]

theorem newline_not_mem_printInt (value : Int) {rest : List Char} (h : '\n' ∉ rest) :
    '\n' ∉ printInt value rest := by
  have hdigits (n : Nat) : '\n' ∉ Nat.toDigits 10 n := fun hmem ↦ by
    have hdigit := Nat.isDigit_of_mem_toDigits (by decide) (by decide) hmem
    revert hdigit
    decide
  rw [printInt, Int.toString_eq_repr, List.mem_append]
  cases value with
  | ofNat n =>
    rw [toList_repr_ofNat]
    exact not_or.2 ⟨hdigits n, h⟩
  | negSucc n =>
    rw [toList_repr_negSucc, List.mem_cons]
    exact not_or.2 ⟨not_or.2 ⟨by decide, hdigits (n + 1)⟩, h⟩

theorem newline_not_mem_printScalar (value : Value) {rest : List Char} (h : '\n' ∉ rest) :
    '\n' ∉ printScalar value rest := by
  unfold printScalar
  split
  · simp [h]
  · simp [h]
  · exact newline_not_mem_printInt _ h
  · exact newline_not_mem_printString _ h
  · simp [h]

mutual

theorem newline_not_mem_print : ∀ (value : Value) {rest : List Char},
    '\n' ∉ rest → '\n' ∉ print value rest
  | .list _ [], rest, h => by
    rw [print]
    simp [h]
  | .list _ (item :: items), rest, h => by
    have hitems : '\n' ∉ printItems items (']' :: rest) :=
      newline_not_mem_printItems items (by simp [h])
    have hitem := newline_not_mem_print item hitems
    rw [print]
    simp [hitem]
  | .map [], rest, h => by
    rw [print]
    simp [h]
  | .map ((key, value) :: members), rest, h => by
    have hmembers : '\n' ∉ printMembers members ('}' :: rest) :=
      newline_not_mem_printMembers members (by simp [h])
    have hvalue := newline_not_mem_print value hmembers
    have hkey : '\n' ∉ print key (':' :: print value (printMembers members ('}' :: rest))) :=
      newline_not_mem_print key (by simp [hvalue])
    rw [print]
    simp [hkey]
  | .null, rest, h | .bool _, rest, h | .int _, rest, h | .float, rest, h
  | .string _, rest, h | .loose _ _ _, rest, h | .tagged _, rest, h
  | .unreadable, rest, h | .broken, rest, h => by
    rw [print]
    · exact newline_not_mem_printScalar _ h
    all_goals nofun

theorem newline_not_mem_printItems : ∀ (items : List Value) {rest : List Char},
    '\n' ∉ rest → '\n' ∉ printItems items rest
  | [], rest, h => by rwa [printItems]
  | item :: items, rest, h => by
    have hitem := newline_not_mem_print item (newline_not_mem_printItems items h)
    rw [printItems]
    simp [hitem]

theorem newline_not_mem_printMembers : ∀ (members : List (Value × Value)) {rest : List Char},
    '\n' ∉ rest → '\n' ∉ printMembers members rest
  | [], rest, h => by rwa [printMembers]
  | (key, value) :: members, rest, h => by
    have hvalue := newline_not_mem_print value (newline_not_mem_printMembers members h)
    have hkey : '\n' ∉ print key (':' :: print value (printMembers members rest)) :=
      newline_not_mem_print key (by simp [hvalue])
    rw [printMembers]
    simp [hkey]

end

/-- The compact form of a value fits on one line. -/
theorem newline_not_mem_compact (value : Value) : '\n' ∉ (compact value).toList := by
  rw [compact, String.toList_ofList]
  exact newline_not_mem_print value List.not_mem_nil

/-! ## Blanks behind a document -/

/-- The compact form of a plain value is read back whatever blanks stand behind it. -/
theorem readDocument_compact_append {levels : Nat} {value : Value} (h : Plain levels value)
    (hlevels : levels < maxDepth) {blanks : List Char}
    (hblanks : ∀ c ∈ blanks, isSpace (some c) = true) :
    readDocument (((compact value).toList ++ blanks).map some) = (value, true) := by
  have hback : ReadsBack .dense 0 value := h.readsBack .dense (by omega)
  have hnone : skipSpace (blanks.map some) = [] := by
    have hskip := skipSpace_blanks hblanks []
    rwa [List.append_nil] at hskip
  have hends : EndsNumber (blanks.map some) := by
    have hblank := endsNumber_blanks hblanks (show EndsNumber (List.map some []) from nofun)
    rwa [List.append_nil] at hblank
  have hprint : (compact value).toList ++ blanks = Layout.dense.print 0 value blanks := by
    rw [compact, String.toList_ofList, ← print_append, List.nil_append, Layout.print_dense]
  have hread := hback 0 blanks (2 * ((Layout.dense.print 0 value blanks).length + 1)) hends
    (by omega)
  rw [readDocument, hprint, List.length_map, hread]
  simp only [hnone, List.isEmpty_nil]

theorem decodeText_compact_append {α : Type} {codec : Codec α} {levels : Nat}
    (h : codec.Lawful levels) (hlevels : levels < maxDepth) (value : α) {blanks : List Char}
    (hblanks : ∀ c ∈ blanks, isSpace (some c) = true) :
    decodeText codec (String.ofList ((encodeCompact codec value).toList ++ blanks)) =
      .ok value := by
  have hread := readDocument_compact_append (h.plain value) hlevels hblanks
  rw [decodeText, decodeSymbols, symbolsOfText, String.toList_ofList, encodeCompact, hread]
  simp only [h.decode_encode]
  rfl

end CommitCoordinator.Json
