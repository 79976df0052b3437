import BillOfMaterials.Package.Render

/-!
# Values under a tag

What the steps that build a stanza do to its fields and to the values found under a tag. Of all the
fields that packages and files have, one carries their identifier.
-/
namespace BillOfMaterials

namespace Stanza

variable {tag tag' : String} (s t : Stanza) (value : String) (absent : Placeholder)

@[simp]
theorem mem_push {f : Field} : f ∈ s.push tag value ↔ f ∈ s ∨ f = ⟨tag, value⟩ := by
  simp [push]

@[simp]
theorem mem_pushSome {f : Field} :
    f ∈ s.pushSome tag value ↔ f ∈ s ∨ value ≠ "" ∧ f = ⟨tag, value⟩ := by
  rw [pushSome]
  split <;> simp_all

@[simp]
theorem values_nil : values [] tag = [] := rfl

@[simp]
theorem values_append : (s ++ t).values tag = s.values tag ++ t.values tag := by
  rw [values, values, values, List.filter_append, List.map_append]

@[simp]
theorem values_push_self : (s.push tag value).values tag = s.values tag ++ [value] := by
  rw [push, values_append]
  simp [values]

@[simp]
theorem values_push_of_ne (h : tag' ≠ tag) : (s.push tag' value).values tag = s.values tag := by
  rw [push, values_append]
  simp [values, h]

@[simp]
theorem values_pushSome_self :
    (s.pushSome tag value).values tag = s.values tag ++ if value.isEmpty then [] else [value] := by
  rw [pushSome]
  split
  · rw [List.append_nil]
  · rw [values_push_self]

@[simp]
theorem values_pushSome_of_ne (h : tag' ≠ tag) :
    (s.pushSome tag' value).values tag = s.values tag := by
  rw [pushSome]
  split
  · rfl
  · exact values_push_of_ne _ _ h

@[simp]
theorem values_pushOr_of_ne (h : tag' ≠ tag) :
    (s.pushOr tag' value absent).values tag = s.values tag :=
  values_push_of_ne _ _ h

@[simp]
theorem values_pushTextOr_of_ne (h : tag' ≠ tag) :
    (s.pushTextOr tag' value absent).values tag = s.values tag :=
  values_push_of_ne _ _ h

@[simp]
theorem values_map_of_ne {α : Type} (f : α → String) (l : List α) (h : tag' ≠ tag) :
    values (l.map fun a => ⟨tag', f a⟩) tag = [] := by
  simp [values, h]

@[simp]
theorem values_map_self {α : Type} (f : α → String) (l : List α) :
    values (l.map fun a => ⟨tag, f a⟩) tag = l.map f := by
  rw [values, List.filter_eq_self.mpr (by simp), List.map_map]
  rfl

@[simp]
theorem values_map_mk_of_ne (l : List String) (h : tag' ≠ tag) :
    values (l.map (Field.mk tag')) tag = [] :=
  values_map_of_ne (fun value => value) l h

@[simp]
theorem values_map_mk_self (l : List String) : values (l.map (Field.mk tag)) tag = l :=
  (values_map_self (fun value => value) l).trans (List.map_id' l)

/-- The identifier that a stanza states, if any. -/
def declaredId : String := (s.values "SPDXID").headD ""

theorem declaredId_of_values {id : String}
    (h : s.values "SPDXID" = if id.isEmpty then [] else [id]) : s.declaredId = id := by
  rw [declaredId, h]
  split
  next empty => exact (String.isEmpty_iff.mp empty).symm
  next => rfl

end Stanza

theorem File.declaredId_stanza (f : File) : f.stanza.declaredId = f.id := by
  apply Stanza.declaredId_of_values
  simp [stanza, checksumFields]

theorem Package.declaredId_fields (info : PackageInfo) (verification : Verification) :
    (fields info verification).declaredId = info.id := by
  apply Stanza.declaredId_of_values
  simp [fields, checksumFields]

end BillOfMaterials
