import BillOfMaterials.Proofs.Json.Objects
import Mathlib.Data.List.Nodup

/-!
# Records

The fields of a record are told by texts. An object that tells some of them, each once, in any order
and among members with other keys, is read as the record with these fields, and what no member tells
keeps its initial value. What is written of a record is an object that tells all of its fields.
-/
namespace BillOfMaterials.Json

/-- The fields of a record by their names, each with the texts that tell it. -/
abbrev Told := List (String × (List Char → Prop))

/-- No field is told twice, and the value of a field is one of its texts. Under other keys there are
any values. -/
structure Object.Tells (o : Object) (told : Told) : Prop where
  once : (o.keys.filter fun key => (told.lookup key).isSome).Nodup
  each : ∀ m ∈ o.members, (told.lookup m.key).getD IsValue m.value.inner

/-- The text is an object with these keys that tells fields. -/
def ObjectText (told : Told) (keys : List String) (text : List Char) : Prop :=
  ∃ o : Object, o.Tells told ∧ o.keys = keys ∧ text = o.text

variable {σ : Type}

/-- Reading the text does `put`, whatever the record held before. -/
def RecordField.Reads (field : RecordField σ) (text : List Char) (put : σ → σ) : Prop :=
  ∀ value gap rest, Gap gap → field.read value (gap ++ (text ++ rest)) = .ok (put value, rest)

/-- The fields of the record have the names in `told`. What is read of the fields in a list of keys
is put into the record as `pick` does. -/
structure Record.Understands (r : Record σ) (told : Told) (pick : List String → σ → σ) : Prop where
  fields : List.Forall₂ (fun field entry => field.name = entry.1 ∧
    ∀ text, entry.2 text → field.Reads text (pick [entry.1])) r.fields told
  others : ∀ keys value, (∀ entry ∈ told, entry.1 ∉ keys) → pick keys value = value
  append : ∀ keys keys' value, pick (keys ++ keys') value = pick keys' (pick keys value)

/-- Each field is written as one of its texts. -/
def Record.Writes (r : Record σ) (value : σ) (told : Told) : Prop :=
  List.Forall₂ (fun field entry => field.name = entry.1 ∧ entry.2 (field.write value)) r.fields told

section Fields

variable {fields : List (RecordField σ)} {told : Told} {key : String}
  {P : RecordField σ → String × (List Char → Prop) → Prop}

/-- The field of a name stands where its texts stand. -/
theorem field_of_lookup {passes : List Char → Prop}
    (h : List.Forall₂ (fun field entry => field.name = entry.1 ∧ P field entry) fields told)
    (known : told.lookup key = some passes) :
    ∃ field, fields.find? (·.name == key) = some field ∧ P field (key, passes) := by
  induction h with
  | nil => simp at known
  | @cons field entry fields told first _ ih =>
    obtain ⟨name, holds⟩ := first
    rw [lookup_cons_eq] at known
    by_cases here : key = entry.1
    · rw [if_pos here, Option.some_inj] at known
      subst here known
      exact ⟨field, List.find?_cons_of_pos (by simp [name]), holds⟩
    · rw [if_neg here] at known
      rw [List.find?_cons_of_neg (by simpa [name] using Ne.symm here)]
      exact ih known

theorem no_field_of_lookup
    (h : List.Forall₂ (fun field entry => field.name = entry.1 ∧ P field entry) fields told)
    (unknown : told.lookup key = none) :
    fields.find? (·.name == key) = none ∧ ∀ entry ∈ told, entry.1 ∉ [key] := by
  induction h with
  | nil => simp
  | @cons field entry fields told first _ ih =>
    rw [lookup_cons_eq] at unknown
    by_cases here : key = entry.1
    · rw [if_pos here] at unknown
      contradiction
    · rw [if_neg here] at unknown
      obtain ⟨none, others⟩ := ih unknown
      have apart : entry.1 ∉ [key] := by simpa using Ne.symm here
      rw [List.find?_cons_of_neg (by simpa [first.1] using Ne.symm here)]
      exact ⟨none, List.forall_mem_cons.mpr ⟨apart, others⟩⟩

end Fields

section Reading

variable {r : Record σ} {told : Told} {pick : List String → σ → σ} {m : Member} {seen : List String}

theorem readMember_of_field {field : RecordField σ} {put : σ → σ}
    (found : r.fields.find? (·.name == m.key) = some field) (new : m.key ∉ seen)
    (reads : field.Reads m.value.inner put) (value : σ) (rest : List Char) :
    r.readMember (seen, value) m.key (m.behindKey rest) =
      .ok ((m.key :: seen, put value), m.value.after ++ rest) := by
  rw [Record.readMember, found]
  dsimp only
  rw [if_neg (by simpa using new), readColon_behindKey]
  dsimp only
  rw [m.value_text_append, reads value _ _ m.value.gapBefore]

theorem readMember_of_other (found : r.fields.find? (·.name == m.key) = none)
    (any : IsValue m.value.inner) (state : List String × σ) {rest : List Char} (stops : Stops rest) :
    r.readMember state m.key (m.behindKey rest) = .ok (state, m.value.after ++ rest) := by
  rw [Record.readMember, found]
  dsimp only
  rw [readColon_behindKey]
  dsimp only
  rw [m.value_text_append, skipValue_of_isValue any m.value.gapBefore
    (m.value.gapAfter.stops_append stops)]

/-- Each member is read in a state in which its key, if it names a field, has not been seen. -/
theorem Record.Understands.readsThrough (h : r.Understands told pick) {members : List Member}
    (once : ((members.map Member.key).filter fun key => (told.lookup key).isSome).Nodup)
    (each : ∀ m ∈ members, (told.lookup m.key).getD IsValue m.value.inner)
    (fresh : ∀ key ∈ seen, key ∉ members.map Member.key) (value : σ) :
    ∃ seen', ReadsThrough r.readMember (seen, value) members
      (seen', pick (members.map Member.key) value) := by
  induction members generalizing seen value with
  | nil =>
    rw [List.map_nil, h.others [] value (by simp)]
    exact ⟨seen, .nil⟩
  | cons m members ih =>
    obtain ⟨first, later⟩ := List.forall_mem_cons.mp each
    rw [List.map_cons] at once fresh
    have step : pick (m.key :: members.map Member.key) value =
        pick (members.map Member.key) (pick [m.key] value) := h.append [m.key] _ value
    rw [List.map_cons, step]
    have fresh' : ∀ key ∈ seen, key ∉ members.map Member.key := fun key member inside =>
      fresh key member (List.mem_cons_of_mem _ inside)
    cases known : told.lookup m.key with
    | none =>
      rw [List.filter_cons_of_neg (by simp [known])] at once
      rw [known] at first
      obtain ⟨found, others⟩ := no_field_of_lookup h.fields known
      obtain ⟨seen', more⟩ := ih once later fresh' value
      rw [h.others _ value others]
      exact ⟨seen', .cons (fun rest => readMember_of_other found first _) more⟩
    | some passes =>
      rw [List.filter_cons_of_pos (by simp [known]), List.nodup_cons] at once
      rw [known] at first
      obtain ⟨field, found, reads⟩ := field_of_lookup h.fields known
      have new : m.key ∉ seen := fun member => fresh m.key member (List.mem_cons_self ..)
      -- a known key stands only once, so that none of the later members repeats it
      have last : m.key ∉ members.map Member.key := by
        intro inside
        exact once.1 (List.mem_filter.mpr ⟨inside, by simp [known]⟩)
      obtain ⟨seen', more⟩ := ih once.2 later (List.forall_mem_cons.mpr ⟨last, fresh'⟩)
        (pick [m.key] value)
      exact ⟨seen', .cons (fun rest _ =>
        readMember_of_field found new (reads _ first) value rest) more⟩

theorem Record.Understands.read_object (h : r.Understands told pick) {o : Object}
    (tells : o.Tells told) {gap : List Char} (isGap : Gap gap) (rest : List Char) :
    r.read (gap ++ (o.text ++ rest)) = .ok (pick o.keys r.initial, rest) := by
  have fresh : ∀ key ∈ ([] : List String), key ∉ o.members.map Member.key := by simp
  obtain ⟨seen, through⟩ := h.readsThrough tells.once tells.each fresh r.initial
  simp only [Record.read, o.opens isGap, readMembers_object through, Object.keys]

/-- Every text of an object that tells fields, with gaps around it, decodes to the value of its
keys. -/
def Record.DecodesObjects (r : Record σ) (told : Told) (value : List String → σ) : Prop :=
  ∀ (o : Object) (s : Spaced), o.Tells told → s.inner = o.text →
    r.decode (String.ofList s.text) = .ok (value o.keys)

theorem Record.Understands.decodes (h : r.Understands told pick) :
    r.DecodesObjects told (pick · r.initial) := by
  intro o s tells inner
  have layout : s.text = s.before ++ (o.text ++ s.after) := by
    rw [Spaced.text, inner, List.append_assoc]
  have blank := s.gapAfter.skipBlank_append []
  rw [List.append_nil] at blank
  rw [Record.decode, String.toList_ofList, layout, h.read_object tells s.gapBefore]
  dsimp only
  rw [blank]
  rfl

end Reading

section Writing

variable {r : Record σ} {value : σ} {told : Told} {pick : List String → σ → σ}

/-- The object that is written of a record. -/
def Record.written (r : Record σ) (value : σ) : Object :=
  .tight (r.fields.map fun field => (field.name, field.write value))

theorem Record.write_eq (r : Record σ) (value : σ) : r.write value = (r.written value).text := by
  rw [written, Object.text_tight, List.map_map]
  rfl

theorem Record.Writes.keys_eq (h : r.Writes value told) :
    (r.written value).keys = told.map Prod.fst := by
  rw [Record.written, Object.keys_tight, List.map_map]
  obtain ⟨initial, fields⟩ := r
  rw [Record.Writes] at h
  dsimp only at h ⊢
  induction h with
  | nil => rfl
  | cons first _ ih => exact congrArg₂ List.cons first.1 ih

/-- With different names, the texts of each field are the ones found under its name. -/
theorem Record.Writes.lookup (h : r.Writes value told) (names : (told.map Prod.fst).Nodup) :
    ∀ field ∈ r.fields, ∃ passes, told.lookup field.name = some passes ∧
      passes (field.write value) := by
  obtain ⟨initial, fields⟩ := r
  rw [Record.Writes] at h
  dsimp only at h ⊢
  induction h with
  | nil => simp
  | @cons field entry fields told first _ ih =>
    obtain ⟨apart, names⟩ := List.nodup_cons.mp (List.map_cons ▸ names)
    refine List.forall_mem_cons.mpr ⟨⟨entry.2, ?_, first.2⟩, ?_⟩
    · rw [lookup_cons_eq, if_pos first.1]
    · intro field member
      obtain ⟨passes, known, holds⟩ := ih names field member
      have inside : field.name ∈ told.map Prod.fst :=
        isSome_lookup_iff.mp (by rw [known]; rfl)
      refine ⟨passes, ?_, holds⟩
      rw [lookup_cons_eq, if_neg, known]
      rintro same
      exact apart (same ▸ inside)

theorem Record.Writes.tells (h : r.Writes value told) (names : (told.map Prod.fst).Nodup) :
    (r.written value).Tells told where
  once := by
    rw [h.keys_eq]
    exact names.filter _
  each m member := by
    simp only [Record.written, Object.tight, List.map_map, List.mem_map, Function.comp] at member
    obtain ⟨field, member, rfl⟩ := member
    obtain ⟨passes, known, holds⟩ := h.lookup names field member
    dsimp only [Member.tight]
    rw [known]
    exact holds

theorem Record.Writes.objectText (h : r.Writes value told) (names : (told.map Prod.fst).Nodup) :
    ObjectText told (told.map Prod.fst) (r.write value) :=
  ⟨r.written value, h.tells names, h.keys_eq, r.write_eq value⟩

/-- What is written of a record reads back, if its fields are all it consists of. -/
theorem Record.Understands.decode_encode (h : r.Understands told pick)
    (writes : r.Writes value told) (names : (told.map Prod.fst).Nodup)
    (whole : pick (told.map Prod.fst) r.initial = value) :
    r.decode (r.encode value) = .ok value := by
  rw [Record.encode, ← Spaced.text_tight (r.write value),
    h.decodes _ _ (writes.tells names) (r.write_eq value)]
  dsimp only
  rw [writes.keys_eq, whole]

end Writing

section Kinds

variable {name : String} {put : σ → σ}

theorem reads_string {get : σ → String} {set : σ → String → σ} {s : String}
    (puts : ∀ value, set value s = put value) {text : List Char} (h : StringText text s) :
    (RecordField.ofString name get set).Reads text put := by
  intro value gap rest isGap
  simp only [RecordField.ofString, readString_of_text h isGap, Except.map, puts]

theorem reads_stringMap {get : σ → SortedMap String} {set : σ → SortedMap String → σ}
    {map : SortedMap String} (puts : ∀ value, set value map = put value) {text : List Char}
    (h : MapText text map) : (RecordField.ofStringMap name get set).Reads text put := by
  intro value gap rest isGap
  simp only [RecordField.ofStringMap, readStringMap_of_text h isGap, Except.map, puts]

theorem reads_record {τ : Type} {r : Record τ} {get : σ → τ} {set : σ → τ → σ} {told : Told}
    {pick : List String → τ → τ} {keys : List String} (understands : r.Understands told pick)
    (puts : ∀ value, set value (pick keys r.initial) = put value) {text : List Char}
    (h : ObjectText told keys text) : (RecordField.ofRecord name r get set).Reads text put := by
  obtain ⟨o, tells, rfl, rfl⟩ := h
  intro value gap rest isGap
  simp only [RecordField.ofRecord, understands.read_object tells isGap, Except.map, puts]

end Kinds
end BillOfMaterials.Json
