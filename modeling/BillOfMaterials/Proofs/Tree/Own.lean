import BillOfMaterials.Proofs.Tree.Walk

/-!
# Changing every package of a tree

What a package holds besides its children can be changed throughout a tree, which keeps its shape
and its keys. Trees that agree on everything but some data are trees that become equal when that
data is wiped out of both.
-/
namespace BillOfMaterials

/-- What a package holds besides its sub-packages and dependencies. -/
structure Package.Own where
  info : PackageInfo
  verification : Verification
  files : SortedMap File
  options : Options

mutual

def Package.mapOwn (f : Package.Own → Package.Own) : Package → Package
  | ⟨info, verification, files, packages, dependencies, options⟩ =>
    let own := f ⟨info, verification, files, options⟩
    ⟨own.info, own.verification, own.files, packages.mapOwn f, dependencies.mapOwn f, own.options⟩

def Children.mapOwn (f : Package.Own → Package.Own) {floor : Option String} :
    Children floor → Children floor
  | .nil => .nil
  | .cons key above child rest => .cons key above (child.mapOwn f) (rest.mapOwn f)

end

mutual

theorem Package.mapOwn_mapOwn (f g : Package.Own → Package.Own) : (p : Package) →
    (p.mapOwn g).mapOwn f = p.mapOwn (f ∘ g)
  | ⟨info, verification, files, packages, dependencies, options⟩ => by
    rw [Package.mapOwn, Package.mapOwn, Package.mapOwn, packages.mapOwn_mapOwn f g,
      dependencies.mapOwn_mapOwn f g]
    rfl

theorem Children.mapOwn_mapOwn (f g : Package.Own → Package.Own) {floor : Option String} :
    (c : Children floor) → (c.mapOwn g).mapOwn f = c.mapOwn (f ∘ g)
  | .nil => rfl
  | .cons _ _ child rest => by
    rw [Children.mapOwn, Children.mapOwn, Children.mapOwn, child.mapOwn_mapOwn f g,
      rest.mapOwn_mapOwn f g]

end

namespace Children

variable {floor : Option String} (f : Package.Own → Package.Own)

theorem toList_mapOwn (c : Children floor) :
    (c.mapOwn f).toList = c.toList.map fun entry => (entry.1, entry.2.mapOwn f) := by
  induction c with
  | nil => rfl
  | cons _ _ _ rest ih => rw [mapOwn, toList, toList, List.map_cons, ih]

theorem isEmpty_mapOwn (c : Children floor) : (c.mapOwn f).isEmpty = c.isEmpty := by
  cases c <;> rfl

theorem contains_mapOwn (c : Children floor) (key : String) :
    (c.mapOwn f).contains key = c.contains key := by
  rw [Bool.eq_iff_iff, contains_iff, contains_iff, toList_mapOwn, List.map_map]
  rfl

theorem mapOwn_insert (c : Children floor) (key : String) (child : Package)
    (above : Above floor key) :
    (c.insert key child above).mapOwn f = (c.mapOwn f).insert key (child.mapOwn f) above := by
  induction c with
  | nil => rfl
  | cons key' above' child' rest ih =>
    rw [insert, mapOwn, insert]
    split
    · rfl
    · split
      next after =>
        rw [mapOwn]
        exact congrArg _ (ih after)
      · rfl

end Children

mutual

/-- The packages of a changed tree are the changed packages of the tree. -/
theorem Package.preorder_mapOwn (f : Package.Own → Package.Own) : (p : Package) →
    (p.mapOwn f).preorder = p.preorder.map (Package.mapOwn f)
  | ⟨info, verification, files, packages, dependencies, options⟩ => by
    rw [Package.preorder_eq, Package.preorder_eq, List.map_cons, List.map_append,
      ← packages.preorder_mapOwn f, ← dependencies.preorder_mapOwn f, Package.mapOwn]

theorem Children.preorder_mapOwn (f : Package.Own → Package.Own) {floor : Option String} :
    (c : Children floor) → (c.mapOwn f).preorder = c.preorder.map (Package.mapOwn f)
  | .nil => rfl
  | .cons _ _ child rest => by
    rw [Children.mapOwn, Children.preorder_cons, Children.preorder_cons, List.map_append,
      child.preorder_mapOwn f, rest.preorder_mapOwn f]

end
end BillOfMaterials
