import BillOfMaterials.Proofs.Json.Skipping
import BillOfMaterials.Proofs.Source.Checksums

/-!
# Objects

An object is read member by member, each from the text behind its key, up to its closing bracket.
What is written of a map of strings is an object that tells the map.
-/
namespace BillOfMaterials.Json

section Members

variable {σ : Type} {read : σ → String → List Char → Parsed σ} {acc acc' : σ} {m : Member}
  {gap rest : List Char}

/-- What stands behind the key of a member. -/
def Member.behindKey (m : Member) (rest : List Char) : List Char :=
  m.keyText.after ++ ':' :: (m.value.text ++ rest)

/-- Members are read one after the other, each up to the gap behind its value. -/
inductive ReadsThrough (read : σ → String → List Char → Parsed σ) : σ → List Member → σ → Prop
  | nil {acc : σ} : ReadsThrough read acc [] acc
  | cons {acc acc' acc'' : σ} {m : Member} {members : List Member}
      (first : ∀ rest, Stops rest →
        read acc m.key (m.behindKey rest) = .ok (acc', m.value.after ++ rest))
      (others : ReadsThrough read acc' members acc'') : ReadsThrough read acc (m :: members) acc''

theorem StringText.head {text : List Char} {s : String} (h : StringText text s) :
    ∃ more, text = '"' :: more := by
  obtain ⟨_, -, rfl⟩ := h
  exact ⟨_, rfl⟩

theorem nextItem_close (first : Bool) (h : Gap gap) (rest : List Char) :
    nextItem '}' first (gap ++ '}' :: rest) = .ok none := by
  rw [nextItem, h.skipBlank_append, skipBlank_cons rfl]
  rfl

theorem Member.text_append (m : Member) (rest : List Char) :
    m.text ++ rest = m.keyText.before ++ (m.keyText.inner ++ m.behindKey rest) := by
  simp [Member.text, pairText, Member.behindKey, Spaced.text]

theorem nextItem_first (h : Gap gap) (m : Member) (rest : List Char) :
    nextItem '}' true (gap ++ (m.text ++ rest)) =
      .ok (some (m.keyText.inner ++ m.behindKey rest)) := by
  obtain ⟨more, head⟩ := m.spelt.head
  rw [nextItem, m.text_append, h.skipBlank_append, m.keyText.gapBefore.skipBlank_append, head,
    List.cons_append, skipBlank_cons rfl]
  rfl

theorem nextItem_comma (h : Gap gap) (m : Member) (rest : List Char) :
    nextItem '}' false (gap ++ ',' :: (m.text ++ rest)) =
      .ok (some (m.keyText.inner ++ m.behindKey rest)) := by
  obtain ⟨more, head⟩ := m.spelt.head
  rw [nextItem, h.skipBlank_append, skipBlank_cons rfl]
  dsimp only
  rw [m.text_append, m.keyText.gapBefore.skipBlank_append, head, List.cons_append,
    skipBlank_cons rfl]
  rfl

theorem readMembers_closed (fuel : Nat) (first : Bool) (h : Gap gap) (rest : List Char) :
    readMembers read (fuel + 1) first acc (gap ++ '}' :: rest) = .ok (acc, rest) := by
  rw [readMembers, nextItem_close first h, h.skipBlank_append, skipBlank_cons rfl]
  rfl

/-- One member is read, and the others are left to do. -/
theorem readMembers_step {first : Bool} {text behind : List Char} (fuel : Nat)
    (found : nextItem '}' first text = .ok (some (m.keyText.inner ++ behind)))
    (h : read acc m.key behind = .ok (acc', rest)) :
    readMembers read (fuel + 1) first acc text = readMembers read fuel false acc' rest := by
  obtain ⟨body, opens, key⟩ := m.spelt.opens behind
  simp only [readMembers, found, opens, key, h]

/-- Behind one of the members: further members and the closing bracket. -/
theorem readMembers_others {members : List Member} (h : ReadsThrough read acc members acc')
    {fuel : Nat} (enough : members.length < fuel) (isGap : Gap gap) (rest : List Char) :
    readMembers read fuel false acc
      (gap ++ ((members.map Member.text).flatMap (',' :: ·) ++ '}' :: rest)) =
        .ok (acc', rest) := by
  induction h generalizing fuel gap with
  | nil =>
    obtain ⟨fuel, rfl⟩ := Nat.exists_eq_add_one_of_ne_zero (Nat.ne_zero_of_lt enough)
    exact readMembers_closed fuel false isGap rest
  | @cons _ _ _ m members first _ ih =>
    obtain ⟨fuel, rfl⟩ := Nat.exists_eq_add_one_of_ne_zero (Nat.ne_zero_of_lt enough)
    rw [List.map_cons, List.flatMap_cons, List.cons_append, List.cons_append, List.append_assoc,
      readMembers_step fuel (nextItem_comma isGap m _) (first _ (stops_parts _ (by decide) rest))]
    exact ih (Nat.lt_of_succ_lt_succ enough) m.value.gapAfter

theorem length_le_parts (parts : List (List Char)) :
    parts.length ≤ (parts.flatMap (',' :: ·)).length := by
  induction parts with
  | nil => exact Nat.le_refl 0
  | cons part parts ih =>
    rw [List.flatMap_cons, List.length_append, List.length_cons, List.length_cons]
    omega

theorem Object.opens (o : Object) (h : Gap gap) (rest : List Char) :
    skipBlank (gap ++ (o.text ++ rest)) = '{' :: (o.text ++ rest).tail :=
  (h.skipBlank_append _).trans (skipBlank_cons rfl _)

/-- The members of an object are read up to its closing bracket, whatever follows. There are fewer
of them than characters. -/
theorem readMembers_object {o : Object} (h : ReadsThrough read acc o.members acc')
    (rest : List Char) :
    readMembers read ((o.text ++ rest).tail.length + 1) true acc (o.text ++ rest).tail =
      .ok (acc', rest) := by
  obtain ⟨gap, members, isGap⟩ := o
  cases h with
  | nil =>
    rw [Object.text, List.map_nil, bracketed_nil_append]
    exact readMembers_closed _ true isGap rest
  | @cons _ _ _ m members first others =>
    rw [Object.text, List.map_cons, bracketed_cons_append, List.tail_cons,
      readMembers_step _ (nextItem_first isGap m _) (first _ (stops_parts _ (by decide) rest))]
    refine readMembers_others others ?_ m.value.gapAfter rest
    have shorter := length_le_parts (members.map Member.text)
    simp only [List.length_append, List.length_cons, List.length_map] at shorter ⊢
    omega

theorem readColon_behindKey (m : Member) (rest : List Char) :
    readColon (m.behindKey rest) = .ok (m.value.text ++ rest) := by
  rw [readColon, Member.behindKey, m.keyText.gapAfter.skipBlank_append, skipBlank_cons rfl]
  rfl

theorem Member.value_text_append (m : Member) (rest : List Char) :
    m.value.text ++ rest = m.value.before ++ (m.value.inner ++ (m.value.after ++ rest)) := by
  simp [Spaced.text]

end Members

section Writing

/-- A text with no gaps around it. -/
def Spaced.tight (inner : List Char) : Spaced := { inner }

theorem Spaced.text_tight (inner : List Char) : (tight inner).text = inner :=
  List.append_nil inner

/-- A member without gaps. -/
def Member.tight (key : String) (value : List Char) : Member where
  key
  keyText := .tight (writeString key)
  value := .tight value
  spelt := stringText_writeString key

/-- An object without gaps. -/
def Object.tight (entries : List (String × List Char)) : Object where
  members := entries.map fun entry => .tight entry.1 entry.2

theorem Object.text_tight (entries : List (String × List Char)) :
    (tight entries).text =
      '{' :: [','].intercalate (entries.map fun entry => writeString entry.1 ++ ':' :: entry.2) ++
        ['}'] := by
  simp [text, tight, bracketed, Function.comp_def, Member.text, Member.tight, pairText,
    Spaced.text_tight]

theorem Object.keys_tight (entries : List (String × List Char)) :
    (tight entries).keys = entries.map Prod.fst := by
  simp [keys, tight, Function.comp_def, Member.tight]

end Writing

section StringMaps

/-- The text is an object of strings that tells the map: of equal keys the last counts. -/
def MapText (text : List Char) (map : SortedMap String) : Prop :=
  ∃ (o : Object) (values : List String), text = o.text ∧
    List.Forall₂ (fun m value => StringText m.value.inner value) o.members values ∧
    map = .ofList (o.keys.zip values)

theorem readsThrough_strings {read : SortedMap String → String → List Char → Parsed (SortedMap String)}
    {members : List Member} {values : List String}
    (reads : ∀ map (m : Member) value rest, StringText m.value.inner value →
      read map m.key (m.behindKey rest) = .ok (map.insert m.key value, m.value.after ++ rest))
    (h : List.Forall₂ (fun m value => StringText m.value.inner value) members values)
    (map : SortedMap String) :
    ReadsThrough read map members (((members.map Member.key).zip values).foldl
      (fun map entry => map.insert entry.1 entry.2) map) := by
  induction h generalizing map with
  | nil => exact .nil
  | @cons m value _ _ first _ ih =>
    exact .cons (fun rest _ => reads map m value rest first) (ih (map.insert m.key value))

theorem readStringMap_of_text {text gap : List Char} {map : SortedMap String}
    (h : MapText text map) (isGap : Gap gap) (rest : List Char) :
    readStringMap (gap ++ (text ++ rest)) = .ok (map, rest) := by
  obtain ⟨o, values, rfl, told, rfl⟩ := h
  rw [readStringMap, o.opens isGap]
  refine readMembers_object (readsThrough_strings ?_ told .empty) rest
  intro map m value rest told
  rw [readColon_behindKey]
  dsimp only
  rw [m.value_text_append, readString_of_text told m.value.gapBefore]

theorem mapText_writeStringMap (map : SortedMap String) : MapText (writeStringMap map) map := by
  refine ⟨.tight (map.entries.map fun entry => (entry.1, writeString entry.2)), map.values,
    ?_, ?_, ?_⟩
  · rw [Object.text_tight, List.map_map]
    rfl
  · simp only [Object.tight, SortedMap.values, List.map_map, List.forall₂_map_left_iff,
      List.forall₂_map_right_iff, List.forall₂_same]
    exact fun entry _ => stringText_writeString entry.2
  · have entries : (map.entries.map Prod.fst).zip map.values = map.entries := by
      rw [SortedMap.values, List.zip_map', List.map_id'' fun _ => rfl]
    have keys : (Object.tight (map.entries.map fun entry => (entry.1, writeString entry.2))).keys =
        map.entries.map Prod.fst := by
      rw [Object.keys_tight, List.map_map]
      rfl
    rw [keys, entries]
    exact SortedMap.ext (SortedMap.entries_ofList map.ascending).symm

end StringMaps

end BillOfMaterials.Json
