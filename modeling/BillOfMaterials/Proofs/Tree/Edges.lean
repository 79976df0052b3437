import BillOfMaterials.Proofs.Tree.Walk

/-!
# Edges of a tree

Every file and every package but the root hangs on its owner by an edge. The edges are listed in
post-order: a package hangs on its owner behind everything that hangs on the package itself.
-/
namespace BillOfMaterials

structure Edge where
  owner : String
  relationship : Relationship
  element : String
  deriving DecidableEq

/-- The line that tells an edge. -/
def Edge.line (e : Edge) : String :=
  match e.relationship with
  | .contains => "Relationship: " ++ e.owner ++ " CONTAINS " ++ e.element
  | .dependsOn => "Relationship: " ++ e.owner ++ " DEPENDS_ON " ++ e.element

/-- A relationship is written as the line of its edge, with an empty line behind it. -/
theorem Relationship.line_eq (r : Relationship) (owner element : String) :
    r.line owner element = Edge.line ⟨owner, r, element⟩ ++ "\n\n" := by
  cases r with
  | contains =>
    have word : " CONTAINS " = " " ++ "CONTAINS" ++ " " := rfl
    rw [Edge.line, word, ← String.append_assoc, ← String.append_assoc]
    rfl
  | dependsOn =>
    have word : " DEPENDS_ON " = " " ++ "DEPENDS_ON" ++ " " := rfl
    rw [Edge.line, word, ← String.append_assoc, ← String.append_assoc]
    rfl

mutual

def Package.edges : Package → List Edge
  | ⟨info, _, files, packages, dependencies, _⟩ =>
    files.values.map (fun f => ⟨info.id, .contains, f.id⟩) ++ packages.edges info.id .contains
      ++ dependencies.edges info.id .dependsOn

def Children.edges (owner : String) (r : Relationship) {floor : Option String} :
    Children floor → List Edge
  | .nil => []
  | .cons _ _ child rest => child.edges ++ ⟨owner, r, child.info.id⟩ :: rest.edges owner r

end

/-- The edges by which files and children hang on the package itself. -/
def Package.links (p : Package) : List Edge :=
  p.files.values.map (fun f => ⟨p.id, .contains, f.id⟩)
    ++ p.packages.toList.map (fun entry => ⟨p.id, .contains, entry.2.id⟩)
    ++ p.dependencies.toList.map (fun entry => ⟨p.id, .dependsOn, entry.2.id⟩)

mutual

/-- Up to their order, the edges of a tree are the links of its packages. -/
theorem Package.edges_perm_links : (p : Package) → p.edges.Perm (p.preorder.flatMap Package.links)
  | ⟨info, verification, files, packages, dependencies, options⟩ => by
    have contained := packages.edges_perm_links info.id .contains
    have required := dependencies.edges_perm_links info.id .dependsOn
    rw [Package.preorder_eq, List.flatMap_cons, List.flatMap_append, Package.edges, Package.links]
    rw [List.perm_iff_count] at contained required ⊢
    intro e
    have here := contained e
    have there := required e
    simp only [List.count_append, Package.id] at here there ⊢
    omega

theorem Children.edges_perm_links {floor : Option String} : (c : Children floor) →
    (owner : String) → (r : Relationship) → (c.edges owner r).Perm
      (c.toList.map (fun entry => ⟨owner, r, entry.2.id⟩) ++ c.preorder.flatMap Package.links)
  | .nil, owner, r => by
    simp [Children.edges, Children.toList, Children.preorder, Children.walk]
  | .cons key above child rest, owner, r => by
    have first := child.edges_perm_links
    have others := rest.edges_perm_links owner r
    rw [Children.preorder_cons, List.flatMap_append, Children.edges, Children.toList, List.map_cons]
    rw [List.perm_iff_count] at first others ⊢
    intro e
    have here := first e
    have there := others e
    simp only [List.count_append, List.count_cons, List.cons_append, Package.id] at here there ⊢
    omega

end
end BillOfMaterials
