import BillOfMaterials.Proofs.Document.Outline
import BillOfMaterials.Proofs.Tree.Built
import Mathlib.Data.List.Nodup

/-!
# Places of stanzas

Identifiers are kept apart among the children of one package only: the same identifier can be
declared again below another package, or below the package that has it. What identifies a stanza is
therefore its place, which is told by the identifiers from the root down to it.
-/
namespace BillOfMaterials

/-- The place of a stanza: the identifiers of the packages from the root down, to the package that
it describes or to the owner of the file that it describes, and the identifier of that file. -/
structure Place where
  packages : List String
  file : Option String
  deriving DecidableEq

namespace Place

/-- The identifier that the stanza at the place declares. -/
def id (x : Place) : String := x.file.getD (x.packages.getLastD "")

/-- The same place as it is seen from the owner of the tree. -/
def within (owner : String) (x : Place) : Place := ⟨owner :: x.packages, x.file⟩

theorem within_injective (owner : String) : Function.Injective (within owner) := by
  rintro ⟨packages, file⟩ ⟨packages', file'⟩ same
  simpa [within] using same

end Place

mutual

/-- The places of the stanzas, in the order of the document. -/
def Outline.places : Outline → List Place
  | ⟨_, stanza, files, children⟩ =>
    ⟨[stanza.declaredId], none⟩
      :: (files.map (fun f => ⟨[stanza.declaredId], some f.declaredId⟩)
        ++ children.places.map (Place.within stanza.declaredId))

def Outlines.places : Outlines → List Place
  | .nil => []
  | .cons _ child rest => child.places ++ rest.places

end

theorem Children.places_outline {floor : Option String} (c : Children floor) (r : Relationship)
    (others : Outlines) :
    (c.outline r others).places =
      c.toList.flatMap (fun entry => entry.2.outline.places) ++ others.places := by
  induction c with
  | nil => rfl
  | cons _ _ child rest ih =>
    rw [outline, Outlines.places, ih, toList, List.flatMap_cons, List.append_assoc]

namespace Package

variable {p : Package}

/-- Sub-packages and dependencies, each under its key. -/
def allChildren (p : Package) : List (String × Package) :=
  p.packages.toList ++ p.dependencies.toList

theorem places_outline (p : Package) :
    p.outline.places = ⟨[p.id], none⟩ :: (p.fileIds.map (fun id => ⟨[p.id], some id⟩)
      ++ (p.allChildren.flatMap fun entry => entry.2.outline.places).map (Place.within p.id)) := by
  cases p with
  | mk info verification files packages dependencies options =>
    have declared : File.id = Stanza.declaredId ∘ File.stanza := by
      funext f
      exact f.declaredId_stanza.symm
    rw [outline, Outline.places, declaredId_fields, packages.places_outline,
      dependencies.places_outline, Outlines.places, List.append_nil, ← List.flatMap_append, fileIds,
      declared, List.map_map, List.map_map]
    rfl

theorem head_place (p : Package) : ∀ x ∈ p.outline.places, x.packages.head? = some p.id := by
  intro x member
  rw [places_outline, List.mem_cons, List.mem_append, List.mem_map, List.mem_map] at member
  rcases member with rfl | ⟨_, -, rfl⟩ | ⟨_, -, rfl⟩
  · rfl
  · rfl
  · rfl

/-- What attachments keep apart: everything is under its own identifier, and no sub-package has that
of a dependency. -/
theorem upheld_filed_packagesApart : Upheld fun q => q.Filed ∧ q.PackagesApart where
  childless info verification options := by
    refine ⟨filed_childless info verification options, fun id member => ?_⟩
    cases member
  congr := by
    rintro p q ⟨filed, apart⟩ files labels
    refine ⟨filed.congr files labels, fun id member => ?_⟩
    rw [childIds_eq_labels, labels, ← childIds_eq_labels] at member ⊢
    exact apart id member
  add := by
    rintro p ⟨filed, apart⟩ item
    exact ⟨filed.add item, apart.add filed.toKeyed item⟩

theorem Filed.nodup_fileIds (filed : p.Filed) : p.fileIds.Nodup :=
  filed.fileIds_ascending.imp String.ne_of_lt

/-- The children of a package have different identifiers, whatever their relationships. -/
theorem Filed.nodup_allChildren (filed : p.Filed) (apart : p.PackagesApart) :
    (p.allChildren.map fun entry => entry.2.id).Nodup := by
  rw [allChildren, List.map_append, List.nodup_append]
  refine ⟨(filed.childIds_ascending .contains).imp String.ne_of_lt,
    (filed.childIds_ascending .dependsOn).imp String.ne_of_lt, ?_⟩
  rintro id contained _ required rfl
  exact apart id contained required

/-- The places of the stanzas below a package are further down than those of its files. -/
theorem packages_ne_of_below {x : Place}
    (member : x ∈ (p.allChildren.flatMap fun entry => entry.2.outline.places).map
      (Place.within p.id)) : x.packages ≠ [p.id] := by
  obtain ⟨y, below, rfl⟩ := List.mem_map.mp member
  obtain ⟨entry, -, inside⟩ := List.mem_flatMap.mp below
  have head := entry.2.head_place y inside
  intro same
  rw [(List.cons.inj same).2] at head
  cases head

/-- Stanzas below different children are at different places, since places begin with the child. -/
theorem nodup_places_of_children (filed : p.Filed) (apart : p.PackagesApart)
    (parts : ∀ r, ∀ entry ∈ (p.children r).toList, entry.2.outline.places.Nodup) :
    p.outline.places.Nodup := by
  have below : (p.allChildren.flatMap fun entry => entry.2.outline.places).Nodup := by
    rw [List.nodup_flatMap]
    constructor
    · intro entry member
      rw [allChildren, List.mem_append] at member
      exact member.elim (parts .contains entry) (parts .dependsOn entry)
    · have differ := List.pairwise_map.mp (filed.nodup_allChildren apart)
      refine differ.imp fun {a b} differ x here there => ?_
      have same := (a.2.head_place x here).symm.trans (b.2.head_place x there)
      exact differ (Option.some.inj same)
  rw [places_outline, List.nodup_cons, List.mem_append, not_or, List.nodup_append]
  refine ⟨⟨by simp, fun member => packages_ne_of_below member rfl⟩, ?_,
    below.map (Place.within_injective p.id), ?_⟩
  · exact filed.nodup_fileIds.map fun id id' same => by simpa using same
  · rintro x file _ member rfl
    obtain ⟨id, -, rfl⟩ := List.mem_map.mp file
    exact packages_ne_of_below member rfl

theorem nodup_places {p : Package}
    (apart : Throughout (fun q => q.Filed ∧ q.PackagesApart) p) : p.outline.places.Nodup := by
  induction p using treeInduction with
  | node p ih =>
    obtain ⟨own, below⟩ := throughout_iff.mp apart
    exact nodup_places_of_children own.1 own.2 fun r entry member =>
      ih r entry member (below r entry member)

theorem Built.render (built : p.Built) : p.render.state.Built := by
  refine built.call [] .render (fun r child same => ?_) (absurd rfl)
  cases same

/-- In the document of a built tree no two stanzas are at the same place. Beneath each package, its
sub-packages and dependencies have different identifiers, and so have its files. -/
theorem stanzas_at_different_places {text : String} (built : p.Built)
    (h : p.render.result = .ok text) :
    p.render.state.outline.text = text ∧ p.render.state.outline.places.Nodup ∧
      ∀ q ∈ p.render.state.preorder,
        (q.childIds .contains ++ q.childIds .dependsOn).Nodup ∧ q.fileIds.Nodup := by
  have apart := built.render.throughout upheld_filed_packagesApart
  refine ⟨p.text_outline_of_render h, nodup_places apart, fun q member => ?_⟩
  obtain ⟨filed, packages⟩ := apart q member
  have ids := filed.nodup_allChildren packages
  rw [allChildren, List.map_append] at ids
  exact ⟨ids, filed.nodup_fileIds⟩

/-- A library that two sub-packages depend on, each with a copy of its own. -/
def withSharedLibrary : Package :=
  let user (name : String) : Package :=
    ((named name).reach (Call.add (.package .dependsOn (named "zlib"))).perform []).2
  let app := childless { name := "app", id := "Package-app" } {} {}
  let first := (app.reach (Call.add (.package .contains (user "a"))).perform []).2
  (first.reach (Call.add (.package .contains (user "b"))).perform []).2

theorem built_withSharedLibrary : withSharedLibrary.Built := by
  have leaf (name : String) : (named name).Built := .start _ _ _
  have user (name : String) := (leaf name).attach (leaf "zlib") .dependsOn
  exact (Built.attach (.start _ _ _) (user "a") .contains).attach (user "b") .contains

theorem stanzas_at_different_places_of_shared_library :
    withSharedLibrary.Built ∧ ∃ text, withSharedLibrary.render.result = .ok text ∧
      withSharedLibrary.render.state.outline.places.Nodup :=
  ⟨built_withSharedLibrary, _, rfl, (stanzas_at_different_places built_withSharedLibrary rfl).2.1⟩

/-- A library that depends on a package called like the one that depends on the library. -/
def withNamesake : Package :=
  let app := childless { name := "app", id := "Package-app" } {} {}
  let lib := ((named "lib").reach (Call.add (.package .dependsOn app)).perform []).2
  (app.reach (Call.add (.package .dependsOn lib)).perform []).2

theorem built_withNamesake : withNamesake.Built := by
  have app : (childless { name := "app", id := "Package-app" } {} {}).Built := .start _ _ _
  have lib : (named "lib").Built := .start _ _ _
  exact app.attach (lib.attach app .dependsOn) .dependsOn

/-- One identifier can be declared beneath two packages, and again beneath the package that has
it. -/
theorem identifiers_repeat_in_a_tree :
    (¬ ∀ (p : Package) (text : String), p.Built → p.render.result = .ok text →
      (p.render.state.outline.places.map Place.id).Nodup) ∧
    ¬ ∀ (p : Package) (text : String), p.Built → p.render.result = .ok text →
      ∀ x ∈ p.render.state.outline.places, x.packages.Nodup := by
  constructor
  · intro unique
    have ids := unique withSharedLibrary _ built_withSharedLibrary rfl
    exact absurd ids (by decide +kernel)
  · intro unique
    have chains := unique withNamesake _ built_withNamesake rfl
    have listed : ⟨["Package-app", "Package-lib", "Package-app"], none⟩ ∈
        withNamesake.render.state.outline.places := by
      decide +kernel
    exact absurd (chains _ listed) (by decide)

end Package
end BillOfMaterials
