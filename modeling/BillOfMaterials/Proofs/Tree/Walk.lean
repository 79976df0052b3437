import BillOfMaterials.Proofs.Store.Keys

/-!
# Walking a tree of packages

The packages of a tree in pre-order: a package, then what lies below its sub-packages, then what
lies below its dependencies, both in ascending key order. Each is seen with the names of the
packages on the way up to the root.
-/
namespace BillOfMaterials

/-- A package met on a walk, with the names of the packages from it up to the root, whose own name
is left out. -/
structure Visit where
  trail : List String
  package : Package

/-- The same package as it is met from one level further up. -/
def Visit.below (name : String) (v : Visit) : Visit := ⟨v.trail ++ [name], v.package⟩

mutual

def Package.walk : Package → List Visit
  | ⟨info, verification, files, packages, dependencies, options⟩ =>
    ⟨[], ⟨info, verification, files, packages, dependencies, options⟩⟩
      :: (packages.walk ++ dependencies.walk)

def Children.walk {floor : Option String} : Children floor → List Visit
  | .nil => []
  | .cons _ _ child rest => child.walk.map (Visit.below child.info.name) ++ rest.walk

end

theorem Package.walk_eq (p : Package) :
    p.walk = ⟨[], p⟩ :: (p.packages.walk ++ p.dependencies.walk) := by
  cases p
  rw [Package.walk]

theorem Children.walk_eq {floor : Option String} (c : Children floor) :
    c.walk = c.toList.flatMap fun entry => entry.2.walk.map (Visit.below entry.2.info.name) := by
  induction c with
  | nil => rfl
  | cons _ _ _ rest ih => rw [walk, ih, toList, List.flatMap_cons]

/-- The packages of a tree, every one before those below it. -/
def Package.preorder (p : Package) : List Package := p.walk.map Visit.package

/-- The packages below a package under one relationship. -/
def Children.preorder {floor : Option String} (c : Children floor) : List Package :=
  c.walk.map Visit.package

theorem Package.preorder_eq (p : Package) :
    p.preorder = p :: (p.packages.preorder ++ p.dependencies.preorder) := by
  rw [preorder, walk_eq, List.map_cons, List.map_append, Children.preorder, Children.preorder]

theorem Children.preorder_cons {floor : Option String} (key : String) (above : Above floor key)
    (child : Package) (rest : Children (some key)) :
    (cons key above child rest).preorder = child.preorder ++ rest.preorder := by
  rw [preorder, walk, List.map_append, List.map_map]
  rfl

theorem Children.mem_preorder_iff {floor : Option String} {c : Children floor} {q : Package} :
    q ∈ c.preorder ↔ ∃ entry ∈ c.toList, q ∈ entry.2.preorder := by
  induction c with
  | nil => simp [preorder, walk, toList]
  | cons key above child rest ih => simp [preorder_cons, toList, ih]

theorem Package.mem_preorder_self (p : Package) : p ∈ p.preorder := by
  rw [preorder_eq]
  exact List.mem_cons_self ..

theorem Package.mem_preorder_iff {p q : Package} :
    q ∈ p.preorder ↔ q = p ∨ ∃ r, ∃ entry ∈ (p.children r).toList, q ∈ entry.2.preorder := by
  rw [preorder_eq, List.mem_cons, List.mem_append, Children.mem_preorder_iff,
    Children.mem_preorder_iff]
  constructor
  · rintro (same | contained | required)
    · exact .inl same
    · exact .inr ⟨.contains, contained⟩
    · exact .inr ⟨.dependsOn, required⟩
  · rintro (same | ⟨_ | _, below⟩)
    · exact .inl same
    · exact .inr (.inl below)
    · exact .inr (.inr below)

mutual

/-- Induction from the children of a package to the package. -/
theorem Package.treeInduction {motive : Package → Prop}
    (node : ∀ p : Package, (∀ r, ∀ entry ∈ (p.children r).toList, motive entry.2) → motive p) :
    (p : Package) → motive p
  | ⟨_, _, _, packages, dependencies, _⟩ => by
    have contained := packages.treeInduction node
    have required := dependencies.treeInduction node
    refine node _ fun r => ?_
    cases r
    · exact contained
    · exact required

theorem Children.treeInduction {motive : Package → Prop}
    (node : ∀ p : Package, (∀ r, ∀ entry ∈ (p.children r).toList, motive entry.2) → motive p)
    {floor : Option String} : (c : Children floor) → ∀ entry ∈ c.toList, motive entry.2
  | .nil => by simp [Children.toList]
  | .cons _ _ child rest => by
    rw [Children.toList, List.forall_mem_cons]
    exact ⟨child.treeInduction node, rest.treeInduction node⟩

end

/-- What holds throughout a tree holds of the root and throughout every tree below it. -/
theorem Package.forall_preorder_iff {p : Package} {P : Package → Prop} :
    (∀ q ∈ p.preorder, P q) ↔
      P p ∧ ∀ r, ∀ entry ∈ (p.children r).toList, ∀ q ∈ entry.2.preorder, P q := by
  constructor
  · intro h
    refine ⟨h p p.mem_preorder_self, fun r entry member q below => h q ?_⟩
    exact mem_preorder_iff.mpr (.inr ⟨r, entry, member, below⟩)
  · rintro ⟨own, below⟩ q member
    rcases mem_preorder_iff.mp member with rfl | ⟨r, entry, stored, inside⟩
    · exact own
    · exact below r entry stored q inside

end BillOfMaterials
