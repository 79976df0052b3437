import BillOfMaterials.Json.Record
import BillOfMaterials.Proofs.Json.Grammar
import BillOfMaterials.Proofs.Path.Relative

/-!
# Strings of JSON

However a string is spelled, it is read as the string it stands for, and what is written of a string
is one of its spellings.
-/
namespace BillOfMaterials.Json

section Layout

variable {gap : List Char}

theorem isBlank_of_mem {c : Char} (h : c ∈ blanks) : isBlank c = true := by
  simp only [blanks, List.mem_cons, List.not_mem_nil, or_false] at h
  rcases h with rfl | rfl | rfl | rfl <;> rfl

theorem Gap.skipBlank_append (h : Gap gap) (rest : List Char) :
    skipBlank (gap ++ rest) = skipBlank rest :=
  List.dropWhile_append_of_pos fun c member => isBlank_of_mem (h c member)

theorem skipBlank_cons {c : Char} (h : isBlank c = false) (rest : List Char) :
    skipBlank (c :: rest) = c :: rest :=
  List.dropWhile_cons_of_neg (by simp [h])

theorem bracketed_nil_append (opening closing : Char) (gap rest : List Char) :
    bracketed opening gap [] closing ++ rest = opening :: (gap ++ closing :: rest) := by
  simp [bracketed]

theorem bracketed_cons_append (opening closing : Char) (gap part : List Char)
    (parts : List (List Char)) (rest : List Char) :
    bracketed opening gap (part :: parts) closing ++ rest =
      opening :: (gap ++ (part ++ (parts.flatMap (',' :: ·) ++ closing :: rest))) := by
  simp [bracketed, Path.intercalate_cons_eq]

end Layout

section Escapes

variable {digits rest : List Char} {n : Nat} {c : Char}

theorem value?_of_hexDigit (h : HexDigit c n) : Text.Hex.value? c = some n := by
  have lower : ∀ i : Fin 16, Text.Hex.value? lowerHex[i] = some i.val := by decide
  have upper : ∀ i : Fin 16, Text.Hex.value? upperHex[i] = some i.val := by decide
  rcases h with h | h
  · obtain ⟨bound, rfl⟩ := List.getElem?_eq_some_iff.mp h
    exact lower ⟨n, bound⟩
  · obtain ⟨bound, rfl⟩ := List.getElem?_eq_some_iff.mp h
    exact upper ⟨n, bound⟩

theorem hexDigit_digit (h : n < 16) : HexDigit (Text.Hex.digit n) n := by
  have lower : ∀ i : Fin 16, lowerHex[i.val]? = some (Text.Hex.digit i) := by decide
  exact .inl (lower ⟨n, h⟩)

theorem readUnit_of_fourHex (h : FourHex digits n) (rest : List Char) :
    readUnit (digits ++ rest) = .ok (n, rest) := by
  cases h with
  | mk first second third fourth =>
    simp only [List.cons_append, List.nil_append, readUnit, value?_of_hexDigit first,
      value?_of_hexDigit second, value?_of_hexDigit third, value?_of_hexDigit fourth]

theorem letterEscape?_of_mem {letter : Char} (h : (letter, c) ∈ escapes) :
    letter ≠ 'u' ∧ letterEscape? letter = some c := by
  simp only [escapes, List.mem_cons, Prod.mk.injEq, List.not_mem_nil, or_false] at h
  rcases h with ⟨rfl, rfl⟩ | ⟨rfl, rfl⟩ | ⟨rfl, rfl⟩ | ⟨rfl, rfl⟩ | ⟨rfl, rfl⟩ | ⟨rfl, rfl⟩ |
    ⟨rfl, rfl⟩ | ⟨rfl, rfl⟩ <;> exact ⟨by decide, rfl⟩

theorem readEscape_of_mem {letter : Char} (h : (letter, c) ∈ escapes) (rest : List Char) :
    readEscape (letter :: rest) = .ok (c, rest) := by
  obtain ⟨other, means⟩ := letterEscape?_of_mem h
  rw [readEscape.eq_3 _ _ other, means]

/-- A character is no surrogate. -/
theorem toNat_scalar (c : Char) : c.toNat < 0xD800 ∨ 0xDFFF < c.toNat ∧ c.toNat < 0x110000 :=
  c.valid

theorem readEscape_of_unit (h : FourHex digits c.toNat) (rest : List Char) :
    readEscape ('u' :: digits ++ rest) = .ok (c, rest) := by
  have scalar := toNat_scalar c
  have alone : isTrailing c.toNat = false ∧ isLeading c.toNat = false := by
    simp only [isTrailing, isLeading, Bool.and_eq_false_iff, decide_eq_false_iff_not]
    omega
  rw [List.cons_append, readEscape, readUnit_of_fourHex h]
  simp [alone.1, alone.2, Char.ofNat_toNat]

theorem readEscape_of_pair {digits' : List Char} {high low : Nat} (h : FourHex digits high)
    (h' : FourHex digits' low) (leading : 0xD800 ≤ high ∧ high ≤ 0xDBFF)
    (trailing : 0xDC00 ≤ low ∧ low ≤ 0xDFFF)
    (point : c.toNat = 0x10000 + (high - 0xD800) * 0x400 + (low - 0xDC00)) (rest : List Char) :
    readEscape ('u' :: digits ++ '\\' :: 'u' :: digits' ++ rest) = .ok (c, rest) := by
  have first : isTrailing high = false ∧ isLeading high = true := by
    simp only [isTrailing, isLeading, Bool.and_eq_false_iff, decide_eq_false_iff_not,
      Bool.and_eq_true, decide_eq_true_eq]
    omega
  have second : isTrailing low = true := by
    simp only [isTrailing, Bool.and_eq_true, decide_eq_true_eq]
    omega
  rw [List.append_assoc, List.cons_append, readEscape, readUnit_of_fourHex h]
  simp [first.1, first.2, readTrailing, readUnit_of_fourHex h', second, ← point, Char.ofNat_toNat]

end Escapes

section Reading

variable {part parts text rest : List Char} {c : Char}

theorem readBody_of_escape (h : readEscape text = .ok (c, rest)) (done : List Char) :
    readBody done ('\\' :: text) = readBody (c :: done) rest := by
  rw [readBody.eq_3]
  split
  next e failed =>
    rw [h] at failed
    cases failed
  next c' rest' read =>
    rw [h] at read
    cases read
    rfl

theorem Spelling.readBody (h : Spelling part c) (done rest : List Char) :
    readBody done (part ++ rest) = readBody (c :: done) rest := by
  cases h with
  | plain h =>
    obtain ⟨printable, noQuote, noBackslash⟩ := h
    rw [List.singleton_append, readBody.eq_4 _ _ _ noQuote noBackslash,
      if_neg (Char.not_lt.mpr printable)]
  | escaped h => exact readBody_of_escape (readEscape_of_mem h rest) done
  | unit h => exact readBody_of_escape (readEscape_of_unit h rest) done
  | pair h h' leading trailing point =>
    exact readBody_of_escape (readEscape_of_pair h h' leading trailing point rest) done

/-- The body of a string is read up to its closing quote, whatever follows. -/
theorem readBody_of_spellings {parts : List (List Char)} {chars : List Char}
    (h : List.Forall₂ Spelling parts chars) (done rest : List Char) :
    readBody done (parts.flatten ++ '"' :: rest) =
      .ok (String.ofList (done.reverse ++ chars), rest) := by
  induction h generalizing done with
  | nil => rw [List.flatten_nil, List.nil_append, readBody, List.append_nil]
  | cons first _ ih =>
    rw [List.flatten_cons, List.append_assoc, first.readBody, ih, List.reverse_cons,
      List.append_assoc, List.singleton_append]

variable {s : String}

/-- A text of a string is its opening quote and what is read as its body. -/
theorem StringText.opens (h : StringText text s) (rest : List Char) :
    ∃ body, text ++ rest = '"' :: body ∧ readBody [] body = .ok (s, rest) := by
  obtain ⟨parts, spelled, rfl⟩ := h
  refine ⟨parts.flatten ++ '"' :: rest, by simp, ?_⟩
  rw [readBody_of_spellings spelled, List.reverse_nil, List.nil_append, String.ofList_toList]

theorem readString_of_text {gap : List Char} (h : StringText text s) (isGap : Gap gap)
    (rest : List Char) : readString (gap ++ (text ++ rest)) = .ok (s, rest) := by
  obtain ⟨body, opens, read⟩ := h.opens rest
  rw [readString, isGap.skipBlank_append, opens, skipBlank_cons rfl]
  exact read

end Reading

section Writing

theorem spelling_escape (c : Char) : Spelling (escape c) c := by
  unfold escape
  split
  iterate 7 exact .escaped (by simp [escapes])
  next noQuote noBackslash _ _ _ _ _ =>
    split
    next control =>
      have bound : c.toNat < 32 := control
      have digits : FourHex ['0', '0', Text.Hex.digit (c.toNat / 16),
          Text.Hex.digit (c.toNat % 16)] (((0 * 16 + 0) * 16 + c.toNat / 16) * 16 + c.toNat % 16) :=
        .mk (.inl rfl) (.inl rfl) (hexDigit_digit (by omega)) (hexDigit_digit (by omega))
      have value : ((0 * 16 + 0) * 16 + c.toNat / 16) * 16 + c.toNat % 16 = c.toNat := by omega
      rw [value] at digits
      exact .unit digits
    next printable =>
      exact .plain ⟨Char.not_lt.mp printable, noQuote, noBackslash⟩

theorem stringText_writeString (s : String) : StringText (writeString s) s := by
  refine ⟨s.toList.map escape, ?_, ?_⟩
  · rw [List.forall₂_map_left_iff, List.forall₂_same]
    intro c _
    exact spelling_escape c
  · rw [writeString, List.flatMap_def]

end Writing
end BillOfMaterials.Json
