import BillOfMaterials.Proofs.Rendering.Result
import BillOfMaterials.Proofs.Store.Attachment
import BillOfMaterials.Proofs.Tree.Edges

/-!
# What one more child does to a document

A document is what the package says of itself and its files, then one fragment for each sub-package
and dependency. A fragment depends on the child and on the identifier of its owner, on nothing else
the owner has. Attaching a child therefore splices its fragment into the document where its key
puts it.
-/
namespace BillOfMaterials

/-- A child with the relationship and the key it was attached under. -/
structure Part where
  relationship : Relationship
  key : String
  child : Package

namespace Part

/-- Sub-packages come in front of dependencies, and smaller keys in front of greater ones. -/
def Before (a b : Part) : Prop :=
  match a.relationship, b.relationship with
  | .contains, .dependsOn => True
  | .dependsOn, .contains => False
  | _, _ => a.key < b.key

theorem before_iff_of_same {r : Relationship} {key key' : String} {child child' : Package} :
    Before ⟨r, key, child⟩ ⟨r, key', child'⟩ ↔ key < key' := by
  cases r <;> rfl

/-- What the part adds to the document of its owner. -/
def fragment (owner : String) (part : Part) : Except Error String := do
  let text ← part.child.render.result.mapError (.within (Package.renderContext part.child.name))
  return text ++ (Edge.line ⟨owner, part.relationship, part.child.id⟩ ++ "\n\n")

def fragments (owner : String) : List Part → Except Error String
  | [] => .ok ""
  | part :: rest => do
    let first ← part.fragment owner
    let more ← fragments owner rest
    return first ++ more

variable {owner text : String}

theorem fragment_eq_ok_iff {part : Part} : part.fragment owner = .ok text ↔
    ∃ document, part.child.render.result = .ok document ∧
      text = document ++ (Edge.line ⟨owner, part.relationship, part.child.id⟩ ++ "\n\n") := by
  simp only [fragment, bind_eq_ok, mapError_eq_ok]
  simp only [pure, Except.pure, Except.ok.injEq, eq_comm]

theorem fragments_cons_eq_ok_iff {part : Part} {rest : List Part} :
    fragments owner (part :: rest) = .ok text ↔ ∃ first more,
      part.fragment owner = .ok first ∧ fragments owner rest = .ok more ∧
        text = first ++ more := by
  simp only [fragments, bind_eq_ok]
  simp only [pure, Except.pure, Except.ok.injEq, eq_comm, exists_and_left]

theorem fragments_append_eq_ok_iff {front back : List Part} :
    fragments owner (front ++ back) = .ok text ↔ ∃ x y,
      fragments owner front = .ok x ∧ fragments owner back = .ok y ∧ text = x ++ y := by
  induction front generalizing text with
  | nil => simp [fragments, eq_comm]
  | cons part front ih =>
    rw [List.cons_append, fragments_cons_eq_ok_iff]
    constructor
    · rintro ⟨first, more, here, rest, rfl⟩
      obtain ⟨x, y, before, behind, rfl⟩ := ih.mp rest
      exact ⟨first ++ x, y, fragments_cons_eq_ok_iff.mpr ⟨first, x, here, before, rfl⟩, behind,
        (String.append_assoc ..).symm⟩
    · rintro ⟨x, y, before, behind, rfl⟩
      obtain ⟨first, more, here, rest, rfl⟩ := fragments_cons_eq_ok_iff.mp before
      exact ⟨first, more ++ y, here, ih.mpr ⟨more, y, rest, behind, rfl⟩,
        String.append_assoc ..⟩

end Part

namespace Children

variable {floor : Option String}

def parts (r : Relationship) (c : Children floor) : List Part :=
  c.toList.map fun entry => ⟨r, entry.1, entry.2⟩

theorem parts_cons (r : Relationship) (key : String) (above : Above floor key) (child : Package)
    (rest : Children (some key)) :
    (cons key above child rest).parts r = ⟨r, key, child⟩ :: rest.parts r := rfl

theorem relationship_of_mem_parts {r : Relationship} {c : Children floor} {part : Part}
    (member : part ∈ c.parts r) : part.relationship = r := by
  obtain ⟨entry, -, rfl⟩ := List.mem_map.mp member
  rfl

theorem parts_insert (r : Relationship) (c : Children floor) {key : String} (child : Package)
    (above : Above floor key) (new : key ∉ c.toList.map Prod.fst) :
    ∃ front back, c.parts r = front ++ back ∧
      (c.insert key child above).parts r = front ++ ⟨r, key, child⟩ :: back ∧
      (∀ part ∈ front, part.Before ⟨r, key, child⟩) ∧
      ∀ part ∈ back, Part.Before ⟨r, key, child⟩ part := by
  obtain ⟨front, back, split, inserted, smaller, greater⟩ :=
    insertEntry_splits child c.ascending new
  refine ⟨front.map fun entry => ⟨r, entry.1, entry.2⟩,
    back.map fun entry => ⟨r, entry.1, entry.2⟩, ?_, ?_, ?_, ?_⟩
  · rw [parts, split, List.map_append]
  · rw [parts, toList_insert, inserted, List.map_append, List.map_cons]
  · exact List.forall_mem_map.mpr fun entry member =>
      Part.before_iff_of_same.mpr (smaller entry member)
  · exact List.forall_mem_map.mpr fun entry member =>
      Part.before_iff_of_same.mpr (greater entry member)

theorem render_result_eq_fragments (owner : String) (r : Relationship) (c : Children floor) :
    (c.render owner r).result = Part.fragments owner (c.parts r) := by
  induction c with
  | nil =>
    rw [render_result_nil]
    rfl
  | cons key above child rest ih =>
    rw [render_result_cons, ih, parts_cons, Part.fragments, Part.fragment, bind_assoc]
    simp only [pure_bind, Relationship.line_eq]

end Children

namespace Package

variable {p : Package}

/-- The sub-packages and dependencies, in the order of the document. -/
def parts (p : Package) : List Part := p.packages.parts .contains ++ p.dependencies.parts .dependsOn

/-- What a document tells of the package itself and of its files. -/
def opening (p : Package) (verification : Verification) : String :=
  document p.info verification p.files "" ""

theorem document_eq (p : Package) (verification : Verification) (packages dependencies : String) :
    document p.info verification p.files packages dependencies =
      p.opening verification ++ (packages ++ dependencies) := by
  simp only [document, opening, String.append_empty, String.append_assoc]

theorem render_result_eq_ok_iff {text : String} : p.render.result = .ok text ↔
    ∃ verification more, p.prepare = .ok verification ∧
      Part.fragments p.id p.parts = .ok more ∧ text = p.opening verification ++ more := by
  rw [render_result]
  simp only [bind_eq_ok, Children.render_result_eq_fragments, parts,
    Part.fragments_append_eq_ok_iff, document_eq]
  constructor
  · rintro ⟨verification, prepared, x, contained, y, required, same⟩
    exact ⟨verification, x ++ y, prepared, ⟨x, y, contained, required, rfl⟩,
      (Except.ok.inj same).symm⟩
  · rintro ⟨verification, _, prepared, ⟨x, y, contained, required, rfl⟩, rfl⟩
    exact ⟨verification, prepared, x, contained, y, required, rfl⟩

theorem opening_setChildren (p : Package) (r : Relationship) (c : Children none) :
    (p.setChildren r c).opening = p.opening := by
  funext verification
  rw [opening, opening, info_setChildren, files_setChildren]

/-- With an identifier of its own, a package is prepared alike whatever its children are. -/
theorem prepare_setChildren (named : p.id ≠ "") (r : Relationship) (c : Children none) :
    (p.setChildren r c).prepare = p.prepare := by
  have given : p.id.isEmpty = false := by simpa using named
  rw [prepare, prepare, id, info_setChildren, files_setChildren, ← id, given]
  rfl

/-- A new child has its place among the others, whichever relationship it is under. -/
theorem parts_insert (r : Relationship) {key : String} (child : Package)
    (new : key ∉ (p.children r).toList.map Prod.fst) :
    ∃ front back, p.parts = front ++ back ∧
      (p.setChildren r ((p.children r).insert key child trivial)).parts =
        front ++ ⟨r, key, child⟩ :: back ∧
      (∀ part ∈ front, part.Before ⟨r, key, child⟩) ∧
      ∀ part ∈ back, Part.Before ⟨r, key, child⟩ part := by
  obtain ⟨front, back, split, inserted, before, behind⟩ :=
    (p.children r).parts_insert r child trivial new
  cases r with
  | contains =>
    refine ⟨front, back ++ p.dependencies.parts .dependsOn, ?_, ?_, before, ?_⟩
    · rw [parts, ← List.append_assoc, ← split]
      rfl
    · rw [parts, ← List.cons_append, ← List.append_assoc, ← inserted]
      rfl
    · refine List.forall_mem_append.mpr ⟨behind, fun part member => ?_⟩
      rw [Part.Before, Children.relationship_of_mem_parts member]
      trivial
  | dependsOn =>
    refine ⟨p.packages.parts .contains ++ front, back, ?_, ?_, ?_, behind⟩
    · rw [parts, List.append_assoc, ← split]
      rfl
    · rw [parts, List.append_assoc, ← inserted]
      rfl
    · refine List.forall_mem_append.mpr ⟨fun part member => ?_, before⟩
      rw [Part.Before, Children.relationship_of_mem_parts member]
      trivial

/-- Attaching a package that renders alone to a package that renders puts its document and its
relationship where its key puts it, and changes nothing else. -/
theorem render_attach_splices (r : Relationship) {t p stored : Package} {o s : String}
    (named : t.id ≠ "") (rendered : t.render.result = .ok o)
    (resolved : p.identified = .ok stored) (free : t.containsId stored.id = false)
    (alone : stored.render.result = .ok s) :
    (t.attach r p).result = .ok stored.id ∧
    ∃ verification front back told x y,
      t.parts = front ++ back ∧
      (t.attach r p).state.parts = front ++ ⟨r, stored.id, stored⟩ :: back ∧
      (∀ part ∈ front, part.Before ⟨r, stored.id, stored⟩) ∧
      (∀ part ∈ back, Part.Before ⟨r, stored.id, stored⟩ part) ∧
      Part.fragments t.id front = .ok told ∧ Part.fragments t.id back = .ok y ∧
      x = t.opening verification ++ told ∧ o = x ++ y ∧
      (t.attach r p).state.render.result =
        .ok (x ++ s ++ (Edge.line ⟨t.id, r, stored.id⟩ ++ "\n\n") ++ y) ∧
      t.render.state.verification = verification ∧
      (t.attach r p).state.render.state.verification = verification := by
  have untaken : t.namespaceOf stored.id = none := by
    rwa [containsId, Option.isSome_eq_false_iff, Option.isNone_iff_eq_none] at free
  have accepted := accept_eq_ok_iff.mpr ⟨resolved, untaken⟩
  have new := (namespaceOf_eq_none_iff.mp untaken).2 r
  obtain ⟨front, back, split, inserted, before, behind⟩ := parts_insert r stored new
  obtain ⟨verification, more, prepared, written, rfl⟩ := render_result_eq_ok_iff.mp rendered
  rw [split] at written
  obtain ⟨told, y, in_front, in_back, rfl⟩ := Part.fragments_append_eq_ok_iff.mp written
  have fragment : Part.fragment t.id ⟨r, stored.id, stored⟩ =
      .ok (s ++ (Edge.line ⟨t.id, r, stored.id⟩ ++ "\n\n")) :=
    Part.fragment_eq_ok_iff.mpr ⟨s, alone, rfl⟩
  rw [attach, accepted]
  dsimp only
  generalize attached : t.setChildren r ((t.children r).insert stored.id stored trivial) = t'
    at inserted ⊢
  -- what the owner says of itself and its files does not depend on its children
  have own : t'.id = t.id := by rw [← attached, id, info_setChildren, id]
  have opening' : t'.opening = t.opening := by rw [← attached, opening_setChildren]
  have prepared' : t'.prepare = .ok verification := by
    rw [← attached, prepare_setChildren named, prepared]
  have written' : Part.fragments t'.id t'.parts =
      .ok (told ++ ((s ++ (Edge.line ⟨t.id, r, stored.id⟩ ++ "\n\n")) ++ y)) := by
    rw [own, inserted]
    exact Part.fragments_append_eq_ok_iff.mpr ⟨told, _, in_front,
      Part.fragments_cons_eq_ok_iff.mpr ⟨_, y, fragment, in_back, rfl⟩, rfl⟩
  have rendered' : t'.render.result =
      .ok (t.opening verification ++ told ++ s ++
        (Edge.line ⟨t.id, r, stored.id⟩ ++ "\n\n") ++ y) := by
    refine render_result_eq_ok_iff.mpr ⟨verification, _, prepared', written', ?_⟩
    simp only [opening', String.append_assoc]
  exact ⟨rfl, verification, front, back, told, _, y, split, inserted, before, behind, in_front,
    in_back, rfl, (String.append_assoc ..).symm, rendered',
    verification_render prepared, verification_render prepared'⟩

/-- A sub-package goes in front of a dependency with a smaller key. -/
theorem render_attach_splices_of_app :
    let t := (ofInfo { name := "app", id := "Package-app" }).addAll
      [.package .dependsOn (named "crc")]
    let stored := (named "zlib").withId "Package-zlib"
    ∃ x y s, t.render.result = .ok (x ++ y) ∧ stored.render.result = .ok s ∧
      (t.attach .contains (named "zlib")).state.render.result =
        .ok (x ++ s ++ "Relationship: Package-app CONTAINS Package-zlib\n\n" ++ y) ∧
      Part.fragments "Package-app" t.parts = .ok y := by
  intro t stored
  have resolved : (named "zlib").identified = .ok stored := rfl
  obtain ⟨o, rendered⟩ : ∃ o, t.render.result = .ok o := ⟨_, rfl⟩
  obtain ⟨s, alone⟩ : ∃ s, stored.render.result = .ok s := ⟨_, rfl⟩
  obtain ⟨-, _, front, back, _, x, y, split, -, before, -, -, behind, -, rfl, spliced, -⟩ :=
    render_attach_splices .contains (by decide) rendered resolved rfl alone
  have none_before : front = [] := by
    refine List.eq_nil_iff_forall_not_mem.mpr fun part member => ?_
    have among : part ∈ t.parts := split ▸ List.mem_append_left back member
    have required : part.relationship = .dependsOn :=
      Children.relationship_of_mem_parts (c := t.dependencies) among
    have contained := before part member
    rw [Part.Before, required] at contained
    exact contained
  rw [none_before, List.nil_append] at split
  exact ⟨x, y, s, rendered, alone, spliced, split ▸ behind⟩

end Package
end BillOfMaterials
