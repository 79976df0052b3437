import BillOfMaterials.Package.Basic

/-!
# Keys of maps and children

Maps and children keep their entries in the same kind of list and insert into it in the same way,
so what an insertion does to keys and entries is told once, of the list.
-/
namespace BillOfMaterials

section Entries

variable {α : Type} {key other : String} {value : α} {entries : List (String × α)}

theorem mem_keys_insertEntry_iff :
    other ∈ (insertEntry key value entries).map Prod.fst ↔
      other = key ∨ other ∈ entries.map Prod.fst := by
  constructor
  · exact mem_keys_insertEntry
  · induction entries with
    | nil => simp [insertEntry]
    | cons entry rest ih =>
      intro member
      rw [insertEntry]
      split
      · simpa using member
      · split
        · rw [List.map_cons, List.mem_cons] at member ⊢
          rcases member with rfl | same | later
          · exact .inr (ih (.inl rfl))
          · exact .inl same
          · exact .inr (ih (.inr later))
        next notBefore notAfter =>
          have same : key = entry.1 := String.le_antisymm notAfter notBefore
          rw [List.map_cons, List.mem_cons] at member ⊢
          rcases member with rfl | rfl | later
          · exact .inl rfl
          · exact .inl same.symm
          · exact .inr later

theorem mem_insertEntry {entry : String × α} (h : entry ∈ insertEntry key value entries) :
    entry = (key, value) ∨ entry ∈ entries := by
  induction entries with
  | nil => simpa [insertEntry] using h
  | cons first rest ih =>
    rw [insertEntry] at h
    split at h
    · simpa using h
    · split at h
      · cases h with
        | head => exact .inr (List.mem_cons_self ..)
        | tail _ h => exact (ih h).imp id (List.mem_cons_of_mem _)
      · cases h with
        | head => exact .inl rfl
        | tail _ h => exact .inr (List.mem_cons_of_mem _ h)

/-- An entry goes between those with smaller keys and those with greater ones. -/
theorem insertEntry_splits (value : α)
    (ascending : (entries.map Prod.fst).Pairwise (· < ·)) (new : key ∉ entries.map Prod.fst) :
    ∃ front back, entries = front ++ back ∧
      insertEntry key value entries = front ++ (key, value) :: back ∧
      (∀ entry ∈ front, entry.1 < key) ∧ ∀ entry ∈ back, key < entry.1 := by
  induction entries with
  | nil => exact ⟨[], [], rfl, rfl, by simp, by simp⟩
  | cons first rest ih =>
    obtain ⟨below, rest_ascending⟩ := List.pairwise_cons.mp (List.map_cons ▸ ascending)
    rw [List.map_cons, List.mem_cons, not_or] at new
    rw [insertEntry]
    split
    next before =>
      refine ⟨[], first :: rest, rfl, rfl, by simp, List.forall_mem_cons.mpr ⟨before, ?_⟩⟩
      intro entry member
      exact String.lt_trans before (below _ (List.mem_map_of_mem member))
    next notBefore =>
      split
      next after =>
        obtain ⟨front, back, split, inserted, smaller, greater⟩ := ih rest_ascending new.2
        rw [split] at inserted ⊢
        exact ⟨first :: front, back, rfl, by rw [inserted, List.cons_append],
          List.forall_mem_cons.mpr ⟨after, smaller⟩, greater⟩
      next notAfter => exact absurd (String.le_antisymm notAfter notBefore) new.1

theorem isSome_lookup_iff :
    (entries.lookup key).isSome = true ↔ key ∈ entries.map Prod.fst := by
  rw [List.lookup_isSome_iff, List.mem_map]
  constructor
  · rintro ⟨entry, member, same⟩
    exact ⟨entry, member, (eq_of_beq same).symm⟩
  · rintro ⟨entry, member, rfl⟩
    exact ⟨entry, member, beq_self_eq_true _⟩

end Entries

theorem SortedMap.contains_iff {α : Type} (m : SortedMap α) (key : String) :
    m.contains key = true ↔ key ∈ m.entries.map Prod.fst :=
  isSome_lookup_iff

theorem Children.contains_iff {floor : Option String} (c : Children floor) (key : String) :
    c.contains key = true ↔ key ∈ c.toList.map Prod.fst :=
  isSome_lookup_iff

/-- Induction along the children of a package, without going into them. -/
@[elab_as_elim, induction_eliminator]
theorem Children.induction {motive : (floor : Option String) → Children floor → Prop}
    (nil : ∀ {floor : Option String}, motive floor .nil)
    (cons : ∀ {floor : Option String} (key : String) (above : Above floor key) (child : Package)
      (rest : Children (some key)), motive (some key) rest →
        motive floor (.cons key above child rest)) :
    {floor : Option String} → (c : Children floor) → motive floor c
  | _, .nil => nil
  | _, .cons key above child rest => cons key above child rest (rest.induction nil cons)

namespace Children

variable {floor : Option String} (c : Children floor)

theorem isEmpty_iff : c.isEmpty = true ↔ c.toList = [] := by
  cases c <;> simp [isEmpty, toList]

theorem keys_above : ∀ key ∈ c.toList.map Prod.fst, Above floor key := by
  induction c with
  | nil =>
    intro key member
    simp [toList] at member
  | @cons floor first above _ rest ih =>
    intro key member
    rw [toList, List.map_cons, List.mem_cons] at member
    cases member with
    | inl same => exact same ▸ above
    | inr later =>
      have step : first < key := ih key later
      cases floor with
      | none => trivial
      | some f => exact String.lt_trans above step

/-- The order of the keys, which the type keeps, as a fact about their list. -/
theorem ascending : (c.toList.map Prod.fst).Pairwise (· < ·) := by
  induction c with
  | nil => simp [toList]
  | cons _ _ _ rest ih =>
    rw [toList, List.map_cons]
    exact List.pairwise_cons.mpr ⟨rest.keys_above, ih⟩

/-- Inserting a child is inserting its entry. -/
theorem toList_insert (key : String) (child : Package) (above : Above floor key) :
    (c.insert key child above).toList = insertEntry key child c.toList := by
  induction c with
  | nil => rfl
  | cons key' above' child' rest ih =>
    rw [insert, toList, insertEntry]
    dsimp only
    split
    · rfl
    · split
      next after => exact congrArg ((key', child') :: ·) (ih after)
      next notBefore notAfter =>
        have same : key = key' := String.le_antisymm notAfter notBefore
        rw [toList, same]

end Children
end BillOfMaterials
