import BillOfMaterials.Proofs.Document.Fields
import BillOfMaterials.Proofs.Store.Lookup
import Mathlib.Data.List.Basic

/-!
# Forms of stanzas

A form lists the tags that stanzas of a kind may have, in their order, and says how often each may
occur. Stanzas are made up of rows, the values under one tag each, and follow the form that their
rows have.
-/
namespace BillOfMaterials

namespace Stanza

/-- How many values there may be under a tag. -/
inductive Occurrence where
  | once
  | atMostOnce
  | anyTimes
  deriving DecidableEq

def Occurrence.Allows : Occurrence → Nat → Prop
  | .once, n => n = 1
  | .atMostOnce, n => n ≤ 1
  | .anyTimes, _ => True

structure Slot where
  tag : String
  occurs : Occurrence
  deriving DecidableEq

abbrev Form := List Slot

structure Follows (form : Form) (s : Stanza) : Prop where
  occurs : ∀ slot ∈ form, slot.occurs.Allows (s.values slot.tag).length
  /-- The tags are those of the form in their order, each repeated for its values. -/
  ordered : s.map Field.tag =
    form.flatMap fun slot => List.replicate (s.values slot.tag).length slot.tag
  filled : ∀ f ∈ s, f.value ≠ ""

section Rows

/-- The values under a tag. -/
structure Row extends Slot where
  values : List String

namespace Row

def fields (r : Row) : Stanza := r.values.map (Field.mk r.tag)

structure Fits (r : Row) : Prop where
  occurs : r.occurs.Allows r.values.length
  filled : "" ∉ r.values

/-- Without values for an empty text. -/
def optional (tag value : String) : Row :=
  ⟨⟨tag, .atMostOnce⟩, if value.isEmpty then [] else [value]⟩

def single (tag value : String) : Row := ⟨⟨tag, .once⟩, [value]⟩

/-- With the placeholder for an empty text. -/
def stated (tag value : String) (absent : Placeholder) : Row :=
  single tag (if value.isEmpty then absent.text else value)

/-- With a text block, or the placeholder for an empty text. -/
def block (tag value : String) (absent : Placeholder) : Row :=
  single tag (if value.isEmpty then absent.text else textBlock value)

def several (tag : String) (values : List String) : Row := ⟨⟨tag, .anyTimes⟩, values⟩

/-- One value for each checksum that is not empty. -/
def checksums (tag : String) (sums : SortedMap String) : Row :=
  several tag ((sums.entries.filter fun c => !c.2.isEmpty).map fun c => c.1 ++ ": " ++ c.2)

theorem optional_fits (tag value : String) : (optional tag value).Fits := by
  rw [optional]
  split
  · exact ⟨Nat.zero_le 1, List.not_mem_nil⟩
  next filled =>
    rw [String.isEmpty_iff] at filled
    exact ⟨Nat.le_refl 1, fun empty => filled (List.mem_singleton.mp empty).symm⟩

theorem single_fits (tag : String) {value : String} (filled : value ≠ "") :
    (single tag value).Fits :=
  ⟨rfl, by simpa [single] using filled.symm⟩

theorem text_ne_empty (absent : Placeholder) : absent.text ≠ "" := by
  cases absent <;> decide

theorem stated_fits (tag value : String) (absent : Placeholder) : (stated tag value absent).Fits := by
  apply single_fits
  split
  · exact text_ne_empty absent
  next filled => simpa using filled

theorem textBlock_ne_empty (value : String) : textBlock value ≠ "" := by
  simp [textBlock]

theorem block_fits (tag value : String) (absent : Placeholder) : (block tag value absent).Fits := by
  apply single_fits
  split
  · exact text_ne_empty absent
  · exact textBlock_ne_empty value

theorem several_fits (tag : String) {values : List String} (filled : "" ∉ values) :
    (several tag values).Fits := ⟨trivial, filled⟩

theorem checksums_fits (tag : String) (sums : SortedMap String) : (checksums tag sums).Fits := by
  apply several_fits
  simp

end Row

def ofRows (rows : List Row) : Stanza := rows.flatMap Row.fields

variable {rows : List Row} {r : Row}

theorem values_fields (r : Row) : r.fields.values r.tag = r.values := values_map_mk_self r.values

theorem values_ofRows_of_notMem {tag : String} (absent : tag ∉ rows.map (·.tag)) :
    (ofRows rows).values tag = [] := by
  induction rows with
  | nil => rfl
  | cons r rows ih =>
    rw [List.map_cons, List.mem_cons, not_or] at absent
    rw [ofRows, List.flatMap_cons, values_append, ← ofRows, ih absent.2, List.append_nil, Row.fields,
      values_map_mk_of_ne _ (Ne.symm absent.1)]

/-- Under different tags the values of a row are those that are found under its tag. -/
theorem values_ofRows (distinct : (rows.map (·.tag)).Nodup) (member : r ∈ rows) :
    (ofRows rows).values r.tag = r.values := by
  induction rows with
  | nil => cases member
  | cons first rows ih =>
    obtain ⟨apart, distinct⟩ := List.nodup_cons.mp (List.map_cons ▸ distinct)
    rw [ofRows, List.flatMap_cons, values_append, ← ofRows]
    rcases List.mem_cons.mp member with rfl | later
    · rw [values_fields, values_ofRows_of_notMem apart, List.append_nil]
    · have other : first.tag ≠ r.tag := fun same => apart (same ▸ List.mem_map_of_mem later)
      rw [ih distinct later, Row.fields, values_map_mk_of_ne _ other, List.nil_append]

theorem follows_ofRows (distinct : (rows.map (·.tag)).Nodup) (fits : ∀ r ∈ rows, r.Fits) :
    (ofRows rows).Follows (rows.map Row.toSlot) where
  occurs := by
    rw [List.forall_mem_map]
    intro r member
    rw [values_ofRows distinct member]
    exact (fits r member).occurs
  ordered := by
    have tags (r : Row) : r.fields.map Field.tag = List.replicate r.values.length r.tag := by
      rw [Row.fields, List.map_map]
      exact List.map_const' ..
    rw [ofRows, List.map_flatMap, List.flatMap_map, ← ofRows]
    apply List.flatMap_congr
    intro r member
    rw [tags, values_ofRows distinct member]
  filled := by
    intro f member
    obtain ⟨r, listed, inside⟩ := List.mem_flatMap.mp member
    obtain ⟨value, given, rfl⟩ := List.mem_map.mp inside
    exact fun empty => (fits r listed).filled (empty ▸ given)

end Rows

section Steps

variable (s : Stanza) (tag value : String) (absent : Placeholder)

theorem push_eq : s.push tag value = s ++ (Row.single tag value).fields := rfl

theorem pushSome_eq : s.pushSome tag value = s ++ (Row.optional tag value).fields := by
  rw [pushSome, Row.fields, Row.optional]
  split
  · exact (List.append_nil s).symm
  · rfl

theorem pushOr_eq : s.pushOr tag value absent = s ++ (Row.stated tag value absent).fields := rfl

theorem pushTextOr_eq :
    s.pushTextOr tag value absent = s ++ (Row.block tag value absent).fields := rfl

theorem checksumFields_eq (sums : SortedMap String) :
    checksumFields tag sums = (Row.checksums tag sums).fields := by
  rw [checksumFields, Row.fields, Row.checksums, Row.several, List.map_map]
  rfl

end Steps

/-- The values tell the checksums that are not empty, in ascending order of the names of their
algorithms. -/
def ListsChecksums (sums : SortedMap String) (values : List String) : Prop :=
  ∃ listed : List (String × String), values = listed.map (fun c => c.1 ++ ": " ++ c.2) ∧
    (listed.map Prod.fst).Pairwise (· < ·) ∧
      ∀ name sum, (name, sum) ∈ listed ↔ sums.find? name = some sum ∧ sum ≠ ""

theorem listsChecksums_ofRows {rows : List Row} {tag : String} {sums : SortedMap String}
    (distinct : (rows.map (·.tag)).Nodup) (member : Row.checksums tag sums ∈ rows) :
    ListsChecksums sums ((ofRows rows).values tag) := by
  refine ⟨sums.entries.filter fun c => !c.2.isEmpty, values_ofRows distinct member, ?_,
    fun name sum => ?_⟩
  · exact sums.ascending.sublist (List.filter_sublist.map Prod.fst)
  · rw [SortedMap.find?, lookup_eq_some_iff_mem sums.ascending, List.mem_filter]
    simp

end Stanza

end BillOfMaterials
