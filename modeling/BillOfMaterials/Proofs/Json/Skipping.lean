import BillOfMaterials.Proofs.Json.Strings

/-!
# Skipping any value

The machine that passes over a value comes to the end of every text that is a value of the grammar,
with the brackets around the value as they were. Of what follows only one thing is needed: that a
number cannot go on there.
-/
namespace BillOfMaterials.Json

/-- What stands behind a value inside an array or an object. -/
def Stops (text : List Char) : Prop :=
  ∃ c more, text = c :: more ∧ (c ∈ blanks ∨ c ∈ [',', ']', '}'])

theorem Gap.stops_append {gap rest : List Char} (h : Gap gap) (stops : Stops rest) :
    Stops (gap ++ rest) := by
  cases gap with
  | nil => exact stops
  | cons c more => exact ⟨c, more ++ rest, rfl, .inl (h c (List.mem_cons_self ..))⟩

/-- Behind a part between brackets come a comma and further parts, or the closing bracket. -/
theorem stops_parts (parts : List (List Char)) {closing : Char} (h : closing ∈ [',', ']', '}'])
    (rest : List Char) : Stops (parts.flatMap (',' :: ·) ++ closing :: rest) := by
  cases parts with
  | nil => exact ⟨closing, rest, rfl, .inr h⟩
  | cons => exact ⟨_, _, rfl, .inr (List.mem_cons_self ..)⟩

/-- What the machine does with the text behind a complete value. -/
def resume (stack : List Bracket) (rest : List Char) : Except ReadError (List Char) :=
  if stack.isEmpty then .ok rest else SkipState.after.run stack rest

section Steps

variable {state next : SkipState} {stack stack' : List Bracket} {c : Char} {gap rest : List Char}

theorem run_to (h : state.step stack c = .to next stack') (rest : List Char) :
    state.run stack (c :: rest) = next.run stack' rest := by
  rw [SkipState.run, h]

theorem run_closed (h : state.step stack c = .closed stack') (rest : List Char) :
    state.run stack (c :: rest) = resume stack' rest := by
  rw [SkipState.run, h]
  cases stack' <;> rfl

/-- The states in which blanks are passed over. -/
def SkipState.SkipsBlanks (state : SkipState) (stack : List Bracket) : Prop :=
  ∀ c, isBlank c = true → state.step stack c = .to state stack

theorem run_gap (skips : state.SkipsBlanks stack) (h : Gap gap) (rest : List Char) :
    state.run stack (gap ++ rest) = state.run stack rest := by
  induction gap with
  | nil => rfl
  | cons c more ih =>
    have blank := isBlank_of_mem (h c (List.mem_cons_self ..))
    rw [List.cons_append, run_to (skips c blank)]
    exact ih fun d member => h d (List.mem_cons_of_mem _ member)

theorem value_skipsBlanks : SkipState.value.SkipsBlanks stack := by
  intro c blank
  simp [SkipState.step, startValue, blank]

theorem after_skipsBlanks {bracket : Bracket} : SkipState.after.SkipsBlanks (bracket :: stack) := by
  intro c blank
  simp [SkipState.step, afterValue, blank]

theorem firstItem_skipsBlanks : SkipState.firstItem.SkipsBlanks stack := by
  intro c blank
  simp [SkipState.step, blank]

theorem firstKey_skipsBlanks : SkipState.firstKey.SkipsBlanks stack := by
  intro c blank
  simp [SkipState.step, blank]

theorem nextKey_skipsBlanks : SkipState.nextKey.SkipsBlanks stack := by
  intro c blank
  simp [SkipState.step, blank]

theorem colon_skipsBlanks : SkipState.colon.SkipsBlanks stack := by
  intro c blank
  simp [SkipState.step, blank]

end Steps

section Words

variable {stack : List Bracket} {word : List Char}

theorem run_word (some : word ≠ []) (rest : List Char) :
    (SkipState.word word).run stack (word ++ rest) = resume stack rest := by
  induction word with
  | nil => exact absurd rfl some
  | cons d word ih =>
    cases word with
    | nil => exact run_closed (by simp [SkipState.step]) rest
    | cons e word =>
      have step : (SkipState.word (d :: e :: word)).step stack d = .to (.word (e :: word)) stack := by
        simp [SkipState.step]
      rw [List.cons_append, run_to step]
      exact ih (List.cons_ne_nil e word)

theorem run_value_of_word (h : word ∈ words) (rest : List Char) :
    SkipState.value.run stack (word ++ rest) = resume stack rest := by
  simp only [words, List.mem_cons, List.not_mem_nil, or_false] at h
  rcases h with rfl | rfl | rfl
  · exact (run_to rfl _).trans (run_word (by decide) rest)
  · exact (run_to rfl _).trans (run_word (by decide) rest)
  · exact (run_to rfl _).trans (run_word (by decide) rest)

end Words

section Quoted

variable {stack : List Bracket} {inKey : Bool} {piece text : List Char}

theorem utf8Size_of_hexDigit {c : Char} {n : Nat} (h : HexDigit c n) : c.utf8Size = 1 := by
  have lower : lowerHex.all (·.utf8Size == 1) = true := by decide
  have upper : upperHex.all (·.utf8Size == 1) = true := by decide
  rcases h with h | h
  · exact eq_of_beq (List.all_eq_true.mp lower c (List.mem_of_getElem? h))
  · exact eq_of_beq (List.all_eq_true.mp upper c (List.mem_of_getElem? h))

/-- One digit of an escape, before the last one. -/
theorem run_unit {c : Char} {n bytes : Nat} (h : HexDigit c n) (more : 1 < bytes)
    (rest : List Char) :
    (SkipState.unit inKey bytes true).run stack (c :: rest) =
      (SkipState.unit inKey (bytes - 1) true).run stack rest := by
  refine run_to ?_ rest
  simp [SkipState.step, utf8Size_of_hexDigit h, value?_of_hexDigit h, more]

theorem run_unit_last {c : Char} {n : Nat} (h : HexDigit c n) (rest : List Char) :
    (SkipState.unit inKey 1 true).run stack (c :: rest) =
      (SkipState.string inKey).run stack rest := by
  refine run_to ?_ rest
  simp [SkipState.step, utf8Size_of_hexDigit h, value?_of_hexDigit h]

theorem step_backslash :
    (SkipState.string inKey).step stack '\\' = .to (.escape inKey) stack := by
  simp [SkipState.step]

theorem run_piece (h : Piece piece) (rest : List Char) :
    (SkipState.string inKey).run stack (piece ++ rest) =
      (SkipState.string inKey).run stack rest := by
  cases h with
  | plain h =>
    obtain ⟨printable, noQuote, noBackslash⟩ := h
    refine run_to ?_ rest
    simp [SkipState.step, noQuote, noBackslash, Char.not_lt.mpr printable]
  | @escaped letter c h =>
    obtain ⟨other, means⟩ := letterEscape?_of_mem h
    rw [List.cons_append, run_to step_backslash]
    refine run_to ?_ rest
    simp [SkipState.step, other, means]
  | unit h =>
    have opened : (SkipState.escape inKey).step stack 'u' = .to (.unit inKey 4 true) stack := rfl
    cases h with
    | mk first second third fourth =>
      rw [List.cons_append, run_to step_backslash, List.cons_append, run_to opened]
      refine (run_unit first (by decide) _).trans ?_
      refine (run_unit second (by decide) _).trans ?_
      exact (run_unit third (by decide) _).trans (run_unit_last fourth rest)

theorem run_pieces {pieces : List (List Char)} (h : ∀ piece ∈ pieces, Piece piece)
    (rest : List Char) :
    (SkipState.string inKey).run stack (pieces.flatten ++ rest) =
      (SkipState.string inKey).run stack rest := by
  induction pieces with
  | nil => rfl
  | cons piece pieces ih =>
    obtain ⟨first, others⟩ := List.forall_mem_cons.mp h
    rw [List.flatten_cons, List.append_assoc, run_piece first, ih others]

theorem run_value_of_quoted (h : IsQuoted text) (rest : List Char) :
    SkipState.value.run stack (text ++ rest) = resume stack rest := by
  obtain ⟨pieces, each, rfl⟩ := h
  have opened : SkipState.value.step stack '"' = .to (.string false) stack := rfl
  rw [List.cons_append, List.cons_append, List.append_assoc, run_to opened, run_pieces each]
  exact run_closed (by simp [SkipState.step, afterString]) rest

/-- A key, from the state in front of the first one or of any other. -/
theorem run_key {state : SkipState} (opens : state.step stack '"' = .to (.string true) stack)
    (h : IsQuoted text) (rest : List Char) :
    state.run stack (text ++ rest) = SkipState.colon.run stack rest := by
  obtain ⟨pieces, each, rfl⟩ := h
  rw [List.cons_append, List.cons_append, List.append_assoc, run_to opens, run_pieces each]
  exact run_to (by simp [SkipState.step, afterString]) rest

end Quoted

section Numbers

variable {state : SkipState} {stack : List Bracket} {part next : NumberPart} {c : Char}
  {text rest : List Char}

theorem isBlank_of_isDigit (h : c.isDigit = true) : isBlank c = false := by
  rw [Bool.eq_false_iff]
  intro blank
  simp only [isBlank, Bool.or_eq_true, beq_iff_eq] at blank
  rcases blank with ((rfl | rfl) | rfl) | rfl <;> exact absurd h (by decide)

theorem step_value_of_digit (h : c.isDigit = true) (nonzero : c ≠ '0') :
    SkipState.value.step stack c = .to (.number .digits) stack := by
  rw [SkipState.step, startValue.eq_def, isBlank_of_isDigit h, if_neg Bool.false_ne_true]
  split
  iterate 7 exact absurd h (by decide)
  · exact absurd rfl nonzero
  · rw [if_pos h]

theorem step_number (h : part.next? c = some next) :
    (SkipState.number part).step stack c = .to (.number next) stack := by
  simp [SkipState.step, h]

/-- The machine stays where it is while there are digits. -/
theorem run_digits (stays : ∀ c, c.isDigit = true → part.next? c = some part)
    (h : ∀ c ∈ text, c.isDigit = true) (rest : List Char) :
    (SkipState.number part).run stack (text ++ rest) = (SkipState.number part).run stack rest := by
  induction text with
  | nil => rfl
  | cons c more ih =>
    obtain ⟨first, others⟩ := List.forall_mem_cons.mp h
    rw [List.cons_append, run_to (step_number (stays c first)), ih others]

/-- Digits behind a mark, the first of which changes the state. -/
theorem run_of_digits (enters : ∀ c, c.isDigit = true → part.next? c = some next)
    (stays : ∀ c, c.isDigit = true → next.next? c = some next) (h : Digits text)
    (rest : List Char) :
    (SkipState.number part).run stack (text ++ rest) = (SkipState.number next).run stack rest := by
  obtain ⟨some, each⟩ := h
  cases text with
  | nil => exact absurd rfl some
  | cons c more =>
    obtain ⟨first, others⟩ := List.forall_mem_cons.mp each
    rw [List.cons_append, run_to (step_number (enters c first)), run_digits stays others]

theorem next?_digits (h : c.isDigit = true) : NumberPart.digits.next? c = some .digits := by
  simp [NumberPart.next?, h]

theorem next?_fraction (h : c.isDigit = true) : NumberPart.fraction.next? c = some .fraction := by
  simp [NumberPart.next?, h]

theorem next?_exponentDigits (h : c.isDigit = true) :
    NumberPart.exponentDigits.next? c = some .exponentDigits := by
  simp [NumberPart.next?, h]

/-- The digits in front of the point, behind a sign or at the start of a value. -/
theorem run_whole (zero : state.step stack '0' = .to (.number .zero) stack)
    (digit : ∀ c, c.isDigit = true → c ≠ '0' → state.step stack c = .to (.number .digits) stack)
    (h : Whole text) (rest : List Char) :
    ∃ part, (part = .zero ∨ part = .digits) ∧
      state.run stack (text ++ rest) = (SkipState.number part).run stack rest := by
  rcases h with rfl | ⟨⟨some, each⟩, nonzero⟩
  · exact ⟨.zero, .inl rfl, run_to zero rest⟩
  · refine ⟨.digits, .inr rfl, ?_⟩
    cases text with
    | nil => exact absurd rfl some
    | cons c more =>
      obtain ⟨first, others⟩ := List.forall_mem_cons.mp each
      have other : c ≠ '0' := fun same => nonzero (congrArg Option.some same)
      rw [List.cons_append, run_to (digit c first other), run_digits (fun _ => next?_digits) others]

theorem run_fraction (h : Fraction text) (whole : part = .zero ∨ part = .digits)
    (stack : List Bracket) (rest : List Char) :
    ∃ next, (next = .zero ∨ next = .digits ∨ next = .fraction) ∧
      (SkipState.number part).run stack (text ++ rest) =
        (SkipState.number next).run stack rest := by
  rcases h with rfl | ⟨digits, h, rfl⟩
  · exact ⟨part, whole.imp_right .inl, rfl⟩
  · refine ⟨.fraction, .inr (.inr rfl), ?_⟩
    have point : part.next? '.' = some .point := by
      rcases whole with rfl | rfl <;> rfl
    have enters (c : Char) (digit : c.isDigit = true) :
        NumberPart.point.next? c = some .fraction := by
      simp [NumberPart.next?, digit]
    rw [List.cons_append, run_to (step_number point),
      run_of_digits enters (fun _ => next?_fraction) h]

theorem run_exponent (h : Exponent text) (before : part = .zero ∨ part = .digits ∨ part = .fraction)
    (stack : List Bracket) (rest : List Char) :
    ∃ next, next.complete = true ∧ (SkipState.number part).run stack (text ++ rest) =
      (SkipState.number next).run stack rest := by
  rcases h with rfl | ⟨mark, sign, digits, isMark, isSign, h, rfl⟩
  · refine ⟨part, ?_, rfl⟩
    rcases before with rfl | rfl | rfl <;> rfl
  · refine ⟨.exponentDigits, rfl, ?_⟩
    have marked : part.next? mark = some .exponent := by
      simp only [List.mem_cons, List.not_mem_nil, or_false] at isMark
      rcases isMark with rfl | rfl <;> rcases before with rfl | rfl | rfl <;> rfl
    have unsigned (c : Char) (digit : c.isDigit = true) :
        NumberPart.exponent.next? c = some .exponentDigits := by
      have noSign : c ≠ '+' ∧ c ≠ '-' := by
        constructor <;> rintro rfl <;> exact absurd digit (by decide)
      simp [NumberPart.next?, digit, noSign.1, noSign.2]
    have signed (c : Char) (digit : c.isDigit = true) :
        NumberPart.exponentSign.next? c = some .exponentDigits := by
      simp [NumberPart.next?, digit]
    rw [List.cons_append, List.cons_append, List.append_assoc, run_to (step_number marked)]
    simp only [List.mem_cons, List.not_mem_nil, or_false] at isSign
    rcases isSign with rfl | rfl | rfl
    · exact run_of_digits unsigned (fun _ => next?_exponentDigits) h rest
    · exact (run_to (step_number rfl) _).trans
        (run_of_digits signed (fun _ => next?_exponentDigits) h rest)
    · exact (run_to (step_number rfl) _).trans
        (run_of_digits signed (fun _ => next?_exponentDigits) h rest)

/-- A complete number ends in front of what stops it. -/
theorem run_number_of_stops (complete : part.complete = true) (h : Stops rest) :
    (SkipState.number part).run stack rest = resume stack rest := by
  obtain ⟨c, more, rfl, stop⟩ := h
  have step : (SkipState.number part).step stack c = afterValue stack c := by
    -- none of these characters goes on a number, and a complete one may end in front of it
    simp only [blanks, List.mem_cons, List.not_mem_nil, or_false] at stop
    rcases stop with (rfl | rfl | rfl | rfl) | rfl | rfl | rfl <;>
      cases part <;> first | rfl | cases complete
  cases stack with
  | nil =>
    rw [SkipState.run, step]
    rfl
  | cons bracket stack =>
    rw [SkipState.run, step]
    rfl

theorem run_value_of_number (h : IsNumber text) (stops : Stops rest) :
    SkipState.value.run stack (text ++ rest) = resume stack rest := by
  obtain ⟨sign, whole, fraction, exponent, isSign, isWhole, isFraction, isExponent, rfl⟩ := h
  have unsigned (state : SkipState) (zero : state.step stack '0' = .to (.number .zero) stack)
      (digit : ∀ c, c.isDigit = true → c ≠ '0' →
        state.step stack c = .to (.number .digits) stack) :
      state.run stack (whole ++ (fraction ++ (exponent ++ rest))) = resume stack rest := by
    obtain ⟨first, isFirst, ran⟩ := run_whole zero digit isWhole (fraction ++ (exponent ++ rest))
    obtain ⟨second, isSecond, ran'⟩ := run_fraction isFraction isFirst stack
      (exponent ++ rest)
    obtain ⟨third, complete, ran''⟩ := run_exponent isExponent isSecond stack rest
    rw [ran, ran', ran'', run_number_of_stops complete stops]
  rw [List.append_assoc, List.append_assoc, List.append_assoc]
  simp only [List.mem_cons, List.not_mem_nil, or_false] at isSign
  rcases isSign with rfl | rfl
  · exact unsigned .value rfl fun _ => step_value_of_digit
  · have opened : SkipState.value.step stack '-' = .to (.number .sign) stack := rfl
    rw [List.singleton_append, run_to opened]
    refine unsigned (.number .sign) rfl fun c digit nonzero => step_number ?_
    simp [NumberPart.next?, digit, nonzero]

end Numbers

section Values

variable {stack : List Bracket} {gap text rest : List Char}

/-- The value is passed over inside any brackets. -/
def Skipped (text : List Char) : Prop :=
  ∀ stack rest, Stops rest → SkipState.value.run stack (text ++ rest) = resume stack rest

theorem IsValue.head (h : IsValue text) :
    ∃ c more, text = c :: more ∧ isBlank c = false ∧ c ≠ ']' := by
  cases h with
  | word h =>
    simp only [words, List.mem_cons, List.not_mem_nil, or_false] at h
    rcases h with rfl | rfl | rfl <;> exact ⟨_, _, rfl, rfl, by decide⟩
  | number h =>
    obtain ⟨sign, whole, fraction, exponent, isSign, isWhole, -, -, rfl⟩ := h
    simp only [List.mem_cons, List.not_mem_nil, or_false] at isSign
    rcases isSign with rfl | rfl
    · rcases isWhole with rfl | ⟨⟨some, each⟩, -⟩
      · exact ⟨_, _, rfl, rfl, by decide⟩
      · obtain ⟨c, more, rfl⟩ := List.exists_cons_of_ne_nil some
        have digit := each c (List.mem_cons_self ..)
        refine ⟨c, _, rfl, isBlank_of_isDigit digit, ?_⟩
        rintro rfl
        exact absurd digit (by decide)
    · exact ⟨_, _, rfl, rfl, by decide⟩
  | string h =>
    obtain ⟨_, _, rfl⟩ := h
    exact ⟨_, _, rfl, rfl, by decide⟩
  | array _ _ => exact ⟨_, _, rfl, rfl, by decide⟩
  | object _ _ _ => exact ⟨_, _, rfl, rfl, by decide⟩

/-- The first item of an array is passed over as any other value. -/
theorem run_firstItem {item : Spaced} (h : IsValue item.inner) (rest : List Char) :
    SkipState.firstItem.run stack (item.text ++ rest) =
      SkipState.value.run stack (item.text ++ rest) := by
  obtain ⟨c, more, split, blank, other⟩ := h.head
  have step : SkipState.firstItem.step stack c = SkipState.value.step stack c := by
    simp [SkipState.step, blank, other]
  rw [Spaced.text, List.append_assoc, List.append_assoc, run_gap firstItem_skipsBlanks item.gapBefore,
    run_gap value_skipsBlanks item.gapBefore, split, List.cons_append, SkipState.run, SkipState.run,
    step]

/-- A value with its gaps, up to the gap behind it. -/
theorem run_spaced {bracket : Bracket} {item : Spaced} (h : Skipped item.inner)
    (stops : Stops rest) :
    SkipState.value.run (bracket :: stack) (item.text ++ rest) =
      SkipState.after.run (bracket :: stack) (item.after ++ rest) := by
  rw [Spaced.text, List.append_assoc, List.append_assoc, run_gap value_skipsBlanks item.gapBefore,
    h _ _ (item.gapAfter.stops_append stops)]
  rfl

/-- Behind one of the items of an array: further items and the closing bracket. -/
theorem run_items {items : List Spaced} (each : ∀ item ∈ items, Skipped item.inner) (h : Gap gap)
    (rest : List Char) :
    SkipState.after.run (.array :: stack)
      (gap ++ ((items.map Spaced.text).flatMap (',' :: ·) ++ ']' :: rest)) =
        resume stack rest := by
  induction items generalizing gap with
  | nil => exact (run_gap after_skipsBlanks h _).trans (run_closed rfl rest)
  | cons item items ih =>
    obtain ⟨first, others⟩ := List.forall_mem_cons.mp each
    have comma : SkipState.after.step (.array :: stack) ',' = .to .value (.array :: stack) := rfl
    rw [run_gap after_skipsBlanks h, List.map_cons, List.flatMap_cons, List.cons_append,
      List.cons_append, run_to comma, List.append_assoc,
      run_spaced first (stops_parts _ (by decide) rest)]
    exact ih others item.gapAfter

/-- A member of an object, from the state in front of the first key or of any other. -/
theorem run_member {state : SkipState} {m : Spaced × Spaced}
    (skips : state.SkipsBlanks (.object :: stack))
    (opens : state.step (.object :: stack) '"' = .to (.string true) (.object :: stack))
    (key : IsQuoted m.1.inner) (value : Skipped m.2.inner) (stops : Stops rest) :
    state.run (.object :: stack) (pairText m.1 m.2 ++ rest) =
      SkipState.after.run (.object :: stack) (m.2.after ++ rest) := by
  have colon : SkipState.colon.step (.object :: stack) ':' = .to .value (.object :: stack) := rfl
  rw [pairText, List.append_assoc, Spaced.text, List.append_assoc, List.append_assoc,
    run_gap skips m.1.gapBefore, run_key opens key, run_gap colon_skipsBlanks m.1.gapAfter,
    List.cons_append, run_to colon, run_spaced value stops]

/-- Behind one of the members of an object: further members and the closing bracket. -/
theorem run_members {members : List (Spaced × Spaced)}
    (keys : ∀ m ∈ members, IsQuoted m.1.inner) (values : ∀ m ∈ members, Skipped m.2.inner)
    (h : Gap gap) (rest : List Char) :
    SkipState.after.run (.object :: stack)
      (gap ++ ((members.map fun m => pairText m.1 m.2).flatMap (',' :: ·) ++ '}' :: rest)) =
        resume stack rest := by
  induction members generalizing gap with
  | nil => exact (run_gap after_skipsBlanks h _).trans (run_closed rfl rest)
  | cons m members ih =>
    obtain ⟨key, keys⟩ := List.forall_mem_cons.mp keys
    obtain ⟨value, values⟩ := List.forall_mem_cons.mp values
    have comma : SkipState.after.step (.object :: stack) ',' = .to .nextKey (.object :: stack) := rfl
    rw [run_gap after_skipsBlanks h, List.map_cons, List.flatMap_cons, List.cons_append,
      List.cons_append, run_to comma, List.append_assoc,
      run_member nextKey_skipsBlanks rfl key value (stops_parts _ (by decide) rest)]
    exact ih keys values m.2.gapAfter

/-- Every value of the grammar is passed over. -/
theorem IsValue.skipped (h : IsValue text) : Skipped text := by
  induction h with
  | word h => exact fun _ rest _ => run_value_of_word h rest
  | number h => exact fun _ _ stops => run_value_of_number h stops
  | string h => exact fun _ rest _ => run_value_of_quoted h rest
  | @array gap items isGap each ih =>
    intro stack rest _
    have opened : SkipState.value.step stack '[' = .to .firstItem (.array :: stack) := rfl
    cases items with
    | nil =>
      rw [List.map_nil, bracketed_nil_append, run_to opened, run_gap firstItem_skipsBlanks isGap]
      exact run_closed rfl rest
    | cons item items =>
      obtain ⟨first, others⟩ := List.forall_mem_cons.mp ih
      rw [List.map_cons, bracketed_cons_append, run_to opened,
        run_gap firstItem_skipsBlanks isGap, run_firstItem (each item (List.mem_cons_self ..)),
        run_spaced first (stops_parts _ (by decide) rest)]
      exact run_items others item.gapAfter rest
  | @object gap members isGap keys values ih =>
    intro stack rest _
    have opened : SkipState.value.step stack '{' = .to .firstKey (.object :: stack) := rfl
    cases members with
    | nil =>
      rw [List.map_nil, bracketed_nil_append, run_to opened, run_gap firstKey_skipsBlanks isGap]
      exact run_closed rfl rest
    | cons m members =>
      obtain ⟨key, keys⟩ := List.forall_mem_cons.mp keys
      obtain ⟨value, others⟩ := List.forall_mem_cons.mp ih
      rw [List.map_cons, bracketed_cons_append, run_to opened, run_gap firstKey_skipsBlanks isGap,
        run_member firstKey_skipsBlanks rfl key value (stops_parts _ (by decide) rest)]
      exact run_members keys others m.2.gapAfter rest

theorem skipValue_of_isValue (h : IsValue text) (isGap : Gap gap) (stops : Stops rest) :
    skipValue (gap ++ (text ++ rest)) = .ok rest := by
  rw [skipValue, run_gap value_skipsBlanks isGap]
  exact h.skipped [] rest stops

end Values
end BillOfMaterials.Json
