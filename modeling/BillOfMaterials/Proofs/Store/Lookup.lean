import BillOfMaterials.Proofs.Store.Keys

/-!
# Looking up what was inserted

An insertion shows under its own key alone. Keys ascend, so that an entry is found exactly if it is
there, and what is found under every key determines a map and the children of a package.
-/
namespace BillOfMaterials

section Entries

variable {α : Type} {key other : String} {value : α} {entries entries' : List (String × α)}

theorem lookup_cons_eq (entry : String × α) :
    (entry :: entries).lookup key = if key = entry.1 then some entry.2 else entries.lookup key := by
  rw [List.lookup_cons]
  by_cases same : key = entry.1
  · simp [same]
  · simp [beq_false_of_ne same, same]

theorem lookup_insertEntry :
    (insertEntry key value entries).lookup other =
      if other = key then some value else entries.lookup other := by
  induction entries with
  | nil => simp [insertEntry, lookup_cons_eq]
  | cons entry rest ih =>
    rw [insertEntry]
    split
    · simp [lookup_cons_eq]
    · split
      next after =>
        rw [lookup_cons_eq, lookup_cons_eq, ih]
        by_cases same : other = key
        · have apart : key ≠ entry.1 := fun same => String.lt_irrefl _ (same ▸ after)
          simp [same, apart]
        · simp [same]
      next notBefore notAfter =>
        have here : key = entry.1 := String.le_antisymm notAfter notBefore
        rw [lookup_cons_eq, lookup_cons_eq, ← here]
        split <;> rfl

/-- Under ascending keys an entry is found exactly where it is. -/
theorem lookup_eq_some_iff_mem (ascending : (entries.map Prod.fst).Pairwise (· < ·)) :
    entries.lookup key = some value ↔ (key, value) ∈ entries := by
  induction entries with
  | nil => simp
  | cons entry rest ih =>
    obtain ⟨below, rest_ascending⟩ := List.pairwise_cons.mp (List.map_cons ▸ ascending)
    rw [lookup_cons_eq, List.mem_cons, ← ih rest_ascending]
    by_cases same : key = entry.1
    · subst same
      have absent : rest.lookup entry.1 ≠ some value := by
        intro found
        have member := (ih rest_ascending).mp found
        exact String.lt_irrefl _ (below _ (List.mem_map.mpr ⟨_, member, rfl⟩))
      simp [absent, Prod.ext_iff, eq_comm]
    · simp [same, Prod.ext_iff]

/-- Where values carry their keys, a value is there exactly if it is found under the one it
carries. -/
theorem mem_values_iff_lookup (ascending : (entries.map Prod.fst).Pairwise (· < ·))
    {keyOf : α → String} (keyed : ∀ entry ∈ entries, keyOf entry.2 = entry.1) :
    value ∈ entries.map Prod.snd ↔ entries.lookup (keyOf value) = some value := by
  rw [lookup_eq_some_iff_mem ascending, List.mem_map]
  constructor
  · rintro ⟨⟨key, value⟩, member, rfl⟩
    rwa [keyed _ member]
  · intro member
    exact ⟨_, member, rfl⟩

/-- What is found under every key determines entries with ascending keys. -/
theorem eq_of_lookup_eq (h : (entries.map Prod.fst).Pairwise (· < ·))
    (h' : (entries'.map Prod.fst).Pairwise (· < ·))
    (same : ∀ key, entries.lookup key = entries'.lookup key) : entries = entries' := by
  have sorted := List.pairwise_map.mp h
  have sorted' := List.pairwise_map.mp h'
  have apart {l : List (String × α)} (s : l.Pairwise fun a b => a.1 < b.1) : l.Nodup :=
    s.imp fun before => by
      rintro rfl
      exact String.lt_irrefl _ before
  apply List.Perm.eq_of_pairwise _ sorted sorted'
  · rw [List.perm_ext_iff_of_nodup (apart sorted) (apart sorted')]
    rintro ⟨key, value⟩
    rw [← lookup_eq_some_iff_mem h, ← lookup_eq_some_iff_mem h', same]
  · intro a b _ _ before after
    exact absurd after (String.lt_asymm before)

end Entries

namespace SortedMap

variable {α : Type} (m : SortedMap α)

theorem find?_insert (key other : String) (value : α) :
    (m.insert key value).find? other = if other = key then some value else m.find? other :=
  lookup_insertEntry

theorem find?_eq_none_iff (key : String) :
    m.find? key = none ↔ key ∉ m.entries.map Prod.fst := by
  rw [← m.contains_iff, contains, Option.not_isSome_iff_eq_none]

theorem ext_find? {m m' : SortedMap α} (same : ∀ key, m.find? key = m'.find? key) : m = m' :=
  ext (eq_of_lookup_eq m.ascending m'.ascending same)

end SortedMap

namespace Children

variable {floor : Option String} (c : Children floor)

theorem find?_insert (key other : String) (child : Package) (above : Above floor key) :
    (c.insert key child above).find? other = if other = key then some child else c.find? other := by
  rw [find?, toList_insert, lookup_insertEntry, find?]

theorem find?_eq_none_iff (key : String) : c.find? key = none ↔ key ∉ c.toList.map Prod.fst := by
  rw [← c.contains_iff, contains, Option.not_isSome_iff_eq_none]

theorem ext_toList {c c' : Children floor} (same : c.toList = c'.toList) : c = c' := by
  induction c with
  | nil =>
    cases c' with
    | nil => rfl
    | cons => cases same
  | cons key above child rest ih =>
    cases c' with
    | nil => cases same
    | cons key' above' child' rest' =>
      obtain ⟨entry, others⟩ := List.cons.inj same
      cases entry
      rw [ih others]

theorem ext_find? {c c' : Children floor} (same : ∀ key, c.find? key = c'.find? key) : c = c' :=
  ext_toList (eq_of_lookup_eq c.ascending c'.ascending same)

end Children
end BillOfMaterials
