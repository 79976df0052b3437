import BillOfMaterials.Text.Utf8

/-!
# Reading back UTF-8

The reader of UTF-8 finds exactly the well-formed characters: bytes decode to a text if and only if
they are the encoding of that text. What spells a character is told by a table of byte ranges, and
the encoder and the reader are each compared with the table.
-/
namespace BillOfMaterials.Text.Utf8

/-- A byte of a character other than its first. -/
def IsTail (b : UInt8) : Prop := 0x80 ≤ b.toNat ∧ b.toNat ≤ 0xBF

/-- The bytes that spell a code point. The bounds on second bytes exclude overlong forms, surrogates
and code points above U+10FFFF. -/
inductive Spells : List UInt8 → Nat → Prop
  | one {a : UInt8} {n : Nat} (range : a.toNat < 0x80) (point : n = a.toNat) : Spells [a] n
  | two {a b : UInt8} {n : Nat} (range : 0xC2 ≤ a.toNat ∧ a.toNat ≤ 0xDF) (second : IsTail b)
      (point : n = a.toNat % 32 * 64 + b.toNat % 64) : Spells [a, b] n
  | three {a b c : UInt8} {n : Nat} (range : 0xE0 ≤ a.toNat ∧ a.toNat ≤ 0xEF) (second : IsTail b)
      (long : a.toNat = 0xE0 → 0xA0 ≤ b.toNat) (scalar : a.toNat = 0xED → b.toNat ≤ 0x9F)
      (third : IsTail c)
      (point : n = (a.toNat % 16 * 64 + b.toNat % 64) * 64 + c.toNat % 64) : Spells [a, b, c] n
  | four {a b c d : UInt8} {n : Nat} (range : 0xF0 ≤ a.toNat ∧ a.toNat ≤ 0xF4) (second : IsTail b)
      (long : a.toNat = 0xF0 → 0x90 ≤ b.toNat) (scalar : a.toNat = 0xF4 → b.toNat ≤ 0x8F)
      (third : IsTail c) (fourth : IsTail d)
      (point : n = ((a.toNat % 8 * 64 + b.toNat % 64) * 64 + c.toNat % 64) * 64 + d.toNat % 64) :
      Spells [a, b, c, d] n

section Encoder

theorem spells_encode (c : Char) : Spells (String.utf8EncodeChar c) c.toNat := by
  have valid : c.toNat < 0xD800 ∨ 0xDFFF < c.toNat ∧ c.toNat < 0x110000 := c.valid
  simp only [String.utf8EncodeChar, Char.toNat_val]
  generalize c.toNat = n at valid
  split
  · refine .one ?_ ?_ <;> simp only [UInt8.toNat_ofNat'] <;> omega
  split
  · refine .two ?_ ?_ ?_ <;> simp only [IsTail, UInt8.toNat_ofNat'] <;> omega
  split
  · refine .three ?_ ?_ ?_ ?_ ?_ ?_ <;> simp only [IsTail, UInt8.toNat_ofNat'] <;> omega
  · refine .four ?_ ?_ ?_ ?_ ?_ ?_ ?_ <;> simp only [IsTail, UInt8.toNat_ofNat'] <;> omega

/-- A byte below 0x80 spells the character of its own number, and is part of no other. -/
theorem Spells.point_of_mem {bytes : List UInt8} {n : Nat} {b : UInt8} (h : Spells bytes n)
    (member : b ∈ bytes) (ascii : b.toNat < 0x80) : n = b.toNat := by
  cases h with
  | one range point => rw [point, List.mem_singleton.mp member]
  | two range second =>
    rw [IsTail] at second
    simp only [List.mem_cons, List.not_mem_nil, or_false] at member
    rcases member with rfl | rfl <;> omega
  | three range second _ _ third =>
    rw [IsTail] at second third
    simp only [List.mem_cons, List.not_mem_nil, or_false] at member
    rcases member with rfl | rfl | rfl <;> omega
  | four range second _ _ third fourth =>
    rw [IsTail] at second third fourth
    simp only [List.mem_cons, List.not_mem_nil, or_false] at member
    rcases member with rfl | rfl | rfl | rfl <;> omega

theorem val_ofNat {n : Nat} (h : n < 0xD800 ∨ 0xDFFF < n ∧ n < 0x110000) :
    (Char.ofNat n).val.toNat = n := by
  rw [Char.ofNat, dif_pos h]
  rfl

theorem byte_eq {a : UInt8} {n : Nat} (same : n = a.toNat) : UInt8.ofNat n = a := by
  rw [same, UInt8.ofNat_toNat]

/-- What spells a code point is the encoding of its character. -/
theorem Spells.encode {bytes : List UInt8} {n : Nat} (h : Spells bytes n) :
    String.utf8EncodeChar (Char.ofNat n) = bytes := by
  cases h with
  | @one a _ range point =>
    have value := val_ofNat (n := n) (by omega)
    simp only [String.utf8EncodeChar, value]
    rw [if_pos (by omega), byte_eq (a := a) (by omega)]
  | @two a b _ range second point =>
    rw [IsTail] at second
    have value := val_ofNat (n := n) (by omega)
    simp only [String.utf8EncodeChar, value]
    rw [if_neg (by omega), if_pos (by omega), byte_eq (a := a) (by omega),
      byte_eq (a := b) (by omega)]
  | @three a b c _ range second long scalar third point =>
    rw [IsTail] at second third
    have value := val_ofNat (n := n) (by omega)
    simp only [String.utf8EncodeChar, value]
    rw [if_neg (by omega), if_neg (by omega), if_pos (by omega), byte_eq (a := a) (by omega),
      byte_eq (a := b) (by omega), byte_eq (a := c) (by omega)]
  | @four a b c d _ range second long scalar third fourth point =>
    rw [IsTail] at second third fourth
    have value := val_ofNat (n := n) (by omega)
    simp only [String.utf8EncodeChar, value]
    rw [if_neg (by omega), if_neg (by omega), if_neg (by omega), byte_eq (a := a) (by omega),
      byte_eq (a := b) (by omega), byte_eq (a := c) (by omega), byte_eq (a := d) (by omega)]

end Encoder

/-- What the reader takes a first byte for, in terms of the table. -/
inductive Leads (a : UInt8) : Lead → Prop
  | complete (range : a.toNat < 0x80) : Leads a (.complete (Char.ofNat a.toNat))
  | two (range : 0xC2 ≤ a.toNat ∧ a.toNat ≤ 0xDF) :
      Leads a (.opening ⟨1, 0x80, 0xBF, a.toNat % 32⟩)
  | three {low high : UInt8} {bits : Nat} (range : 0xE0 ≤ a.toNat ∧ a.toNat ≤ 0xEF)
      (follows : ∀ b, low ≤ b ∧ b ≤ high ↔ IsTail b ∧ (a.toNat = 0xE0 → 0xA0 ≤ b.toNat) ∧
        (a.toNat = 0xED → b.toNat ≤ 0x9F))
      (start : bits = a.toNat % 16) : Leads a (.opening ⟨2, low, high, bits⟩)
  | four {low high : UInt8} {bits : Nat} (range : 0xF0 ≤ a.toNat ∧ a.toNat ≤ 0xF4)
      (follows : ∀ b, low ≤ b ∧ b ≤ high ↔ IsTail b ∧ (a.toNat = 0xF0 → 0x90 ≤ b.toNat) ∧
        (a.toNat = 0xF4 → b.toNat ≤ 0x8F))
      (start : bits = a.toNat % 8) : Leads a (.opening ⟨3, low, high, bits⟩)
  | invalid (range : 0x80 ≤ a.toNat ∧ a.toNat < 0xC2 ∨ 0xF4 < a.toNat) : Leads a .invalid

theorem leads (a : UInt8) : Leads a (lead a) := by
  simp only [lead, UInt8.lt_iff_toNat_lt, UInt8.le_iff_toNat_le, ← UInt8.toNat_inj,
    UInt8.reduceToNat]
  split
  next range => exact .complete range
  split
  next range => exact .two range
  -- E0 and ED before the other first bytes of three, then F0 and F4 before the others of four
  iterate 3
    split
    next =>
      refine .three (by omega) (fun b => ?_) (by omega)
      simp only [IsTail, UInt8.le_iff_toNat_le, UInt8.reduceToNat]
      omega
  iterate 3
    split
    next =>
      refine .four (by omega) (fun b => ?_) (by omega)
      simp only [IsTail, UInt8.le_iff_toNat_le, UInt8.reduceToNat]
      omega
  exact .invalid (by omega)

namespace Reader

variable {r : Reader} {p : Partial} {seen : List (Option Char)} {bytes : List UInt8} {a b : UInt8}

theorem isTail_iff : IsTail b ↔ 0x80 ≤ b ∧ b ≤ 0xBF := by
  simp only [IsTail, UInt8.le_iff_toNat_le, UInt8.reduceToNat]

/-- The reader behind a byte that the open character goes on with. -/
def continued (seen : List (Option Char)) (p : Partial) (b : UInt8) : Reader :=
  if p.owed ≤ 1 then ⟨some (Char.ofNat (p.bits * 64 + b.toNat % 64)) :: seen, none⟩
  else ⟨seen, some ⟨p.owed - 1, 0x80, 0xBF, p.bits * 64 + b.toNat % 64⟩⟩

theorem continued_of_more {owed bits : Nat} {low high : UInt8} (more : 1 < owed) :
    continued seen ⟨owed, low, high, bits⟩ b =
      ⟨seen, some ⟨owed - 1, 0x80, 0xBF, bits * 64 + b.toNat % 64⟩⟩ :=
  if_neg (by simpa using more)

theorem push_between (seen : List (Option Char)) (a : UInt8) :
    push ⟨seen, none⟩ a = start seen a := rfl

theorem push_of_range (range : p.low ≤ b ∧ b ≤ p.high) :
    push ⟨seen, some p⟩ b = continued seen p b := by
  rw [push]
  exact if_pos range

theorem push_of_tail {owed bits : Nat} (tail : IsTail b) :
    push ⟨seen, some ⟨owed, 0x80, 0xBF, bits⟩⟩ b = continued seen ⟨owed, 0x80, 0xBF, bits⟩ b :=
  push_of_range (isTail_iff.mp tail)

theorem push_of_not_range (range : ¬(p.low ≤ b ∧ b ≤ p.high)) :
    push ⟨seen, some p⟩ b = start (none :: seen) b := by
  rw [push]
  exact if_neg range

/-- The reader reads a character from the bytes that spell it. -/
theorem foldl_spelt {n : Nat} (h : Spells bytes n) :
    bytes.foldl push ⟨seen, none⟩ = ⟨some (Char.ofNat n) :: seen, none⟩ := by
  cases h with
  | @one a _ range point =>
    rw [List.foldl_cons, push_between, start]
    have led := leads a
    generalize lead a = l at led ⊢
    cases led with
    | complete =>
      rw [point]
      rfl
    | _ => omega
  | @two a b _ range second point =>
    rw [List.foldl_cons, push_between, start]
    have led := leads a
    generalize lead a = l at led ⊢
    cases led with
    | two =>
      dsimp only
      rw [List.foldl_cons, push_of_tail second, point]
      rfl
    | _ => omega
  | @three a b c _ range second long scalar third point =>
    rw [List.foldl_cons, push_between, start]
    have led := leads a
    generalize lead a = l at led ⊢
    cases led with
    | three _ follows bits =>
      dsimp only
      rw [List.foldl_cons, push_of_range ((follows b).mpr ⟨second, long, scalar⟩), List.foldl_cons,
        continued_of_more (by decide), push_of_tail third, point, bits]
      rfl
    | _ => omega
  | @four a b c d _ range second long scalar third fourth point =>
    rw [List.foldl_cons, push_between, start]
    have led := leads a
    generalize lead a = l at led ⊢
    cases led with
    | four _ follows bits =>
      dsimp only
      rw [List.foldl_cons, push_of_range ((follows b).mpr ⟨second, long, scalar⟩), List.foldl_cons,
        continued_of_more (by decide), push_of_tail third, List.foldl_cons,
        continued_of_more (by decide), push_of_tail fourth, point, bits]
      rfl
    | _ => omega

/-- What has been read stays read. -/
theorem pieces_suffix_push (r : Reader) (b : UInt8) : r.pieces <:+ (r.push b).pieces := by
  have begun (seen : List (Option Char)) : seen <:+ (start seen b).pieces := by
    rw [start]
    split <;> simp
  rw [push]
  split
  · exact begun r.pieces
  · split
    · split <;> simp
    · exact (List.suffix_cons ..).trans (begun _)

/-- Nothing invalid has been read, and no character is open. -/
def Sound (r : Reader) : Prop := none ∉ r.finish

theorem not_sound_of_mem (invalid : none ∈ r.pieces) (bytes : List UInt8) :
    ¬ (bytes.foldl push r).Sound := by
  induction bytes generalizing r with
  | nil =>
    intro sound
    apply sound
    rw [List.foldl_nil, finish]
    split <;> simp [invalid]
  | cons b bytes ih => exact ih ((pieces_suffix_push r b).subset invalid)

/-- In a sound text, an open character goes on with a byte in its range. -/
theorem next_of_sound (sound : (bytes.foldl push ⟨seen, some p⟩).Sound) :
    ∃ b rest, bytes = b :: rest ∧ (p.low ≤ b ∧ b ≤ p.high) ∧
      (rest.foldl push (continued seen p b)).Sound := by
  cases bytes with
  | nil => simp [Sound, finish] at sound
  | cons b rest =>
    by_cases range : p.low ≤ b ∧ b ≤ p.high
    · refine ⟨b, rest, rfl, range, ?_⟩
      rwa [List.foldl_cons, push_of_range range] at sound
    · have invalid : none ∈ (start (none :: seen) b).pieces := by
        rw [start]
        split <;> simp
      rw [List.foldl_cons, push_of_not_range range] at sound
      exact absurd sound (not_sound_of_mem invalid rest)

theorem tail_of_sound {owed bits : Nat}
    (sound : (bytes.foldl push ⟨seen, some ⟨owed + 1, 0x80, 0xBF, bits⟩⟩).Sound) :
    ∃ b rest, bytes = b :: rest ∧ IsTail b ∧ (0 < owed →
      (rest.foldl push ⟨seen, some ⟨owed, 0x80, 0xBF, bits * 64 + b.toNat % 64⟩⟩).Sound) := by
  obtain ⟨b, rest, rfl, range, sound⟩ := next_of_sound sound
  refine ⟨b, rest, rfl, isTail_iff.mpr range, fun more => ?_⟩
  rwa [continued_of_more (by omega)] at sound

/-- A sound text begins with the bytes of a character. -/
theorem spelt_of_sound (sound : ((a :: bytes).foldl push ⟨seen, none⟩).Sound) :
    ∃ front back n, a :: bytes = front ++ back ∧ Spells front n := by
  rw [List.foldl_cons, push_between, start] at sound
  have led := leads a
  generalize lead a = l at led sound
  cases led with
  | complete range => exact ⟨[a], bytes, _, rfl, .one range rfl⟩
  | two range =>
    obtain ⟨b, rest, rfl, second, -⟩ := tail_of_sound sound
    exact ⟨[a, b], rest, _, rfl, .two range second rfl⟩
  | three range follows =>
    obtain ⟨b, bytes, rfl, inside, sound⟩ := next_of_sound sound
    obtain ⟨second, long, scalar⟩ := (follows b).mp inside
    rw [continued_of_more (by decide)] at sound
    obtain ⟨c, rest, rfl, third, -⟩ := tail_of_sound sound
    exact ⟨[a, b, c], rest, _, rfl, .three range second long scalar third rfl⟩
  | four range follows =>
    obtain ⟨b, bytes, rfl, inside, sound⟩ := next_of_sound sound
    obtain ⟨second, long, scalar⟩ := (follows b).mp inside
    rw [continued_of_more (by decide)] at sound
    obtain ⟨c, bytes, rfl, third, sound⟩ := tail_of_sound sound
    obtain ⟨d, rest, rfl, fourth, -⟩ := tail_of_sound (sound (by decide))
    exact ⟨[a, b, c, d], rest, _, rfl, .four range second long scalar third fourth rfl⟩
  | invalid => exact absurd sound (not_sound_of_mem (by simp) bytes)

theorem foldl_push_encode (chars : List Char) (seen : List (Option Char)) :
    (chars.flatMap String.utf8EncodeChar).foldl push ⟨seen, none⟩ =
      ⟨(chars.map some).reverse ++ seen, none⟩ := by
  induction chars generalizing seen with
  | nil => rfl
  | cons c chars ih =>
    rw [List.flatMap_cons, List.foldl_append, foldl_spelt (spells_encode c), Char.ofNat_toNat, ih]
    simp

/-- A sound text is the encoding of some characters, one for each time around. -/
theorem exists_chars_of_sound (bytes : List UInt8) {seen : List (Option Char)}
    (sound : (bytes.foldl push ⟨seen, none⟩).Sound) :
    ∃ chars : List Char, bytes = chars.flatMap String.utf8EncodeChar := by
  match bytes with
  | [] => exact ⟨[], rfl⟩
  | a :: bytes =>
    obtain ⟨front, back, n, split, spells⟩ := spelt_of_sound sound
    have shorter : back.length < (a :: bytes).length := by
      rw [split, List.length_append]
      cases spells <;> simp
    rw [split, List.foldl_append, foldl_spelt spells] at sound
    obtain ⟨chars, rfl⟩ := exists_chars_of_sound back sound
    exact ⟨Char.ofNat n :: chars, by rw [split, List.flatMap_cons, spells.encode]⟩
termination_by bytes.length
decreasing_by exact shorter

end Reader

theorem pieces_encode (text : String) : pieces (encode text) = text.toList.map some := by
  rw [pieces, encode, Reader.empty, Reader.foldl_push_encode]
  simp [Reader.finish]

theorem decode?_encode (text : String) : decode? (encode text) = some text := by
  simp [decode?, pieces_encode]

/-- A text is shown as it is. -/
theorem decodeLossy_encode (text : String) : decodeLossy (encode text) = text := by
  simp [decodeLossy, pieces_encode, Function.comp_def]

theorem sound_of_decode? {bytes : List UInt8} {text : String} (h : decode? bytes = some text) :
    (bytes.foldl Reader.push Reader.empty).Sound := by
  intro invalid
  have refused : ¬ (pieces bytes).all Option.isSome := by
    intro valid
    simpa using List.all_eq_true.mp valid none invalid
  simp [decode?, refused] at h

/-- A text is read from exactly the bytes of its encoding. -/
theorem decode?_eq_some_iff {bytes : List UInt8} {text : String} :
    decode? bytes = some text ↔ bytes = encode text := by
  constructor
  · intro h
    obtain ⟨chars, rfl⟩ := Reader.exists_chars_of_sound bytes (sound_of_decode? h)
    have read := decode?_encode (String.ofList chars)
    rw [encode, String.toList_ofList, h] at read
    rw [Option.some.inj read, encode, String.toList_ofList]
  · rintro rfl
    exact decode?_encode text

theorem encode_inj {s t : String} : encode s = encode t ↔ s = t := by
  constructor
  · intro same
    exact Option.some.inj (by rw [← decode?_encode s, same, decode?_encode t])
  · exact congrArg encode

theorem encode_append (s t : String) : encode (s ++ t) = encode s ++ encode t := by
  rw [encode, String.toList_append, List.flatMap_append, encode, encode]

/-- Behind a byte below 0x80 the encoding of a text is that of the rest of it. -/
theorem exists_tail_of_encode_eq_cons {text : String} {b : UInt8} {rest : List UInt8}
    (h : encode text = b :: rest) (ascii : b.toNat < 0x80) :
    ∃ tail : String, rest = encode tail ∧ tail.toList <:+ text.toList := by
  rw [encode] at h
  cases split : text.toList with
  | nil =>
    rw [split] at h
    cases h
  | cons c chars =>
    have spelt := spells_encode c
    rw [split, List.flatMap_cons] at h
    generalize String.utf8EncodeChar c = bytes at spelt h
    cases spelt with
    | one =>
      rw [List.cons_append, List.cons.injEq] at h
      refine ⟨String.ofList chars, ?_, ?_⟩
      · rw [encode, String.toList_ofList, ← h.2, List.nil_append]
      · rw [String.toList_ofList]
        exact List.suffix_cons c chars
    | two range | three range | four range =>
      rw [List.cons_append, List.cons.injEq] at h
      rw [h.1] at range
      omega

end BillOfMaterials.Text.Utf8
