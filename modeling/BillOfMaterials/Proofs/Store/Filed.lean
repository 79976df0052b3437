import BillOfMaterials.Proofs.Store.Identifiers

/-!
# Children under their own identifiers

Attaching files and packages stores each under the identifier it is answered with, and that is never
empty: an explicit identifier is kept, and a synthesised one begins with what it identifies. Lists
in key order are therefore in strictly ascending order of identifiers.
-/
namespace BillOfMaterials.Package

theorem fileId_ne_empty {p : Package} {f : File} {id : String} (resolved : p.fileId f = .ok id) :
    id ≠ "" := by
  rw [fileId] at resolved
  split at resolved
  · rw [Identifier.ofFile] at resolved
    split at resolved
    · cases resolved
    · split at resolved
      · cases resolved
      · rw [← Except.ok.inj resolved]
        simp
  next explicit =>
    rw [← Except.ok.inj resolved]
    simpa using explicit

theorem id_ne_empty_of_identified {child stored : Package}
    (resolved : child.identified = .ok stored) : stored.id ≠ "" := by
  rw [identified] at resolved
  split at resolved
  · rw [Identifier.ofPackage] at resolved
    split at resolved
    · cases resolved
    · rw [← Except.ok.inj resolved]
      simp [withId, id]
  next explicit =>
    rw [← Except.ok.inj resolved]
    simpa using explicit

/-- Everything stored carries the identifier it is stored under, and no identifier is empty. -/
structure Filed (p : Package) : Prop extends Keyed p where
  named_files : "" ∉ p.files.entries.map Prod.fst
  named_children : ∀ r, "" ∉ (p.children r).toList.map Prod.fst

theorem filed_childless (info : PackageInfo) (verification : Verification) (options : Options) :
    (childless info verification options).Filed where
  toKeyed := keyed_childless info verification options
  named_files := by simp [childless, SortedMap.empty]
  named_children r := by cases r <;> simp [childless, children, Children.toList]

theorem Filed.add {p : Package} (filed : p.Filed) (item : Attachment) :
    (p.add item).state.Filed := by
  have keyed := filed.toKeyed.add item
  have step := p.added item
  generalize p.add item = outcome at step keyed ⊢
  cases step with
  | refused e => exact filed
  | file resolved =>
    refine ⟨keyed, ?_, fun r => ?_⟩
    · intro member
      rcases mem_keys_insertEntry_iff.mp member with same | old
      · exact fileId_ne_empty resolved same.symm
      · exact filed.named_files old
    · have same := filed.named_children r
      cases r <;> exact same
  | @package r child stored events accepted =>
    refine ⟨keyed, ?_, fun r' => ?_⟩
    · rw [files_setChildren]
      exact filed.named_files
    · rw [children_setChildren]
      split
      · rw [(p.children r).toList_insert stored.id stored trivial, mem_keys_insertEntry_iff, not_or]
        have named := id_ne_empty_of_identified (accept_eq_ok_iff.mp accepted).1
        exact ⟨named.symm, filed.named_children r⟩
      · exact filed.named_children r'

theorem Filed.addAll {p : Package} (filed : p.Filed) (items : List Attachment) :
    (p.addAll items).Filed := by
  induction items generalizing p with
  | nil => exact filed
  | cons item items ih => exact ih (filed.add item)

theorem Keyed.fileIds_ascending {p : Package} (keyed : p.Keyed) : p.fileIds.Pairwise (· < ·) := by
  rw [keyed.fileIds_eq]
  exact p.files.ascending

theorem Keyed.childIds_ascending {p : Package} (keyed : p.Keyed) (r : Relationship) :
    (p.childIds r).Pairwise (· < ·) := by
  rw [keyed.childIds_eq]
  exact (p.children r).ascending

theorem Filed.fileIds_named {p : Package} (filed : p.Filed) : "" ∉ p.fileIds := by
  rw [filed.fileIds_eq]
  exact filed.named_files

theorem Filed.childIds_named {p : Package} (filed : p.Filed) (r : Relationship) :
    "" ∉ p.childIds r := by
  rw [filed.childIds_eq]
  exact filed.named_children r

end BillOfMaterials.Package
