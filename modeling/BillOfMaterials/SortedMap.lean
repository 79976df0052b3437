/-!
# Maps with ascending keys

A finite map from strings, kept as the list of its entries in strictly ascending key order. Keys
compare by code point, which is also the order of their UTF-8 bytes. The order is part of the type,
so two maps with the same entries are equal.
-/
namespace BillOfMaterials

/-- Puts an entry in front of the first greater key, replacing the value of an equal one. -/
def insertEntry {α : Type} (key : String) (value : α) : List (String × α) → List (String × α)
  | [] => [(key, value)]
  | entry :: rest =>
    if key < entry.1 then (key, value) :: entry :: rest
    else if entry.1 < key then entry :: insertEntry key value rest
    else (key, value) :: rest

theorem mem_keys_insertEntry {α : Type} {key other : String} {value : α}
    {entries : List (String × α)} (h : other ∈ (insertEntry key value entries).map Prod.fst) :
    other = key ∨ other ∈ entries.map Prod.fst := by
  induction entries with
  | nil => simpa [insertEntry] using h
  | cons entry rest ih =>
    unfold insertEntry at h
    split at h
    · simpa using h
    · split at h
      · simp only [List.map_cons, List.mem_cons] at h ⊢
        rcases h with h | h
        · exact .inr (.inl h)
        · exact (ih h).imp id .inr
      · simp only [List.map_cons, List.mem_cons] at h ⊢
        exact h.imp id .inr

theorem ascending_insertEntry {α : Type} (key : String) (value : α) {entries : List (String × α)}
    (h : (entries.map Prod.fst).Pairwise (· < ·)) :
    ((insertEntry key value entries).map Prod.fst).Pairwise (· < ·) := by
  induction entries with
  | nil => simp [insertEntry]
  | cons entry rest ih =>
    obtain ⟨below, ascending⟩ := List.pairwise_cons.mp (List.map_cons ▸ h)
    unfold insertEntry
    split
    next before =>
      refine List.pairwise_cons.mpr ⟨fun other member => ?_, h⟩
      rcases List.mem_cons.mp member with rfl | member
      · exact before
      · exact String.lt_trans before (below other member)
    next notBefore =>
      split
      next after =>
        refine List.pairwise_cons.mpr ⟨fun other member => ?_, ih ascending⟩
        rcases mem_keys_insertEntry member with rfl | member
        · exact after
        · exact below other member
      next notAfter =>
        have same : key = entry.1 := String.le_antisymm notAfter notBefore
        exact List.pairwise_cons.mpr ⟨fun other member => same ▸ below other member, ascending⟩

structure SortedMap (α : Type) where
  entries : List (String × α)
  ascending : (entries.map Prod.fst).Pairwise (· < ·)

namespace SortedMap

variable {α : Type}

theorem ext {m m' : SortedMap α} (h : m.entries = m'.entries) : m = m' := by
  cases m
  cases m'
  simp_all

def empty : SortedMap α := ⟨[], by simp⟩

instance : Inhabited (SortedMap α) := ⟨empty⟩

def isEmpty (m : SortedMap α) : Bool := m.entries.isEmpty

def size (m : SortedMap α) : Nat := m.entries.length

def values (m : SortedMap α) : List α := m.entries.map Prod.snd

def find? (m : SortedMap α) (key : String) : Option α := m.entries.lookup key

def contains (m : SortedMap α) (key : String) : Bool := (m.find? key).isSome

/-- Adds an entry, replacing the value of a key that is already there. -/
def insert (m : SortedMap α) (key : String) (value : α) : SortedMap α :=
  ⟨insertEntry key value m.entries, ascending_insertEntry key value m.ascending⟩

/-- The map of a list of entries, of which the last with a given key counts. -/
def ofList (entries : List (String × α)) : SortedMap α :=
  entries.foldl (fun m entry => m.insert entry.1 entry.2) empty

end SortedMap
end BillOfMaterials
