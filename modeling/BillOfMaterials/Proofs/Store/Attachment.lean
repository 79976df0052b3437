import BillOfMaterials.Package.Store
import BillOfMaterials.Proofs.Store.Keys

/-!
# Attaching one thing after another

A package is filled by a sequence of attachments, each of which may be refused. Attaching either
leaves the package as it was, or stores one file, or stores one package under one relationship, and
what is stored carries the identifier it is stored under.
-/
namespace BillOfMaterials

theorem Relationship.forall_iff {P : Relationship → Prop} :
    (∀ r, P r) ↔ P .contains ∧ P .dependsOn := by
  constructor
  · intro h
    exact ⟨h _, h _⟩
  · rintro ⟨contained, required⟩ r
    cases r
    · exact contained
    · exact required

/-- What a caller attaches to a package. -/
inductive Attachment where
  | file (f : File)
  | package (r : Relationship) (child : Package)

namespace Package

def add (p : Package) : Attachment → Outcome Package String
  | .file f => p.addFile f
  | .package .contains child => p.addPackage child
  | .package .dependsOn child => p.addDependency child

/-- The package after attaching everything in turn, refusals passed over. -/
def addAll (p : Package) (items : List Attachment) : Package :=
  items.foldl (fun p item => (p.add item).state) p

/-- A package that nothing has been attached to. -/
def childless (info : PackageInfo) (verification : Verification) (options : Options) : Package :=
  ⟨info, verification, .empty, .nil, .nil, options⟩

/-- The identifiers of the files, as the files carry them. -/
def fileIds (p : Package) : List String := p.files.values.map File.id

/-- The identifiers of the children under a relationship, as the children carry them. -/
def childIds (p : Package) (r : Relationship) : List String :=
  (p.children r).toList.map fun entry => entry.2.id

theorem add_package (p : Package) (r : Relationship) (child : Package) :
    p.add (.package r child) = p.attach r child := by
  cases r <;> rfl

theorem addAll_cons (p : Package) (item : Attachment) (items : List Attachment) :
    p.addAll (item :: items) = (p.add item).state.addAll items := rfl

theorem namespaceOf_eq_none_iff {p : Package} {id : String} :
    p.namespaceOf id = none ↔ id ∉ p.files.entries.map Prod.fst ∧
      ∀ r, id ∉ (p.children r).toList.map Prod.fst := by
  rw [Relationship.forall_iff, ← SortedMap.contains_iff, ← Children.contains_iff,
    ← Children.contains_iff, namespaceOf, children, children]
  cases p.files.contains id <;> cases p.packages.contains id <;>
    cases p.dependencies.contains id <;> simp

theorem accept_eq_ok_iff {p child stored : Package} :
    p.accept child = .ok stored ↔
      child.identified = .ok stored ∧ p.namespaceOf stored.id = none := by
  rw [accept]
  cases child.identified with
  | error e => simp
  | ok identified =>
    dsimp only
    cases taken : p.namespaceOf identified.id with
    | some takenAs =>
      constructor
      · intro h
        cases h
      · rintro ⟨same, free⟩
        cases same
        rw [taken] at free
        cases free
    | none =>
      constructor
      · intro h
        cases h
        exact ⟨rfl, taken⟩
      · rintro ⟨same, -⟩
        exact same

/-- What an attachment can do, each case with its condition. -/
inductive Added (p : Package) : Attachment → Outcome Package String → Prop
  | refused {item : Attachment} (e : Error) : Added p item ⟨.error e, p, []⟩
  | file {f : File} {id : String} {events : List Event} (resolved : p.fileId f = .ok id) :
      Added p (.file f) ⟨.ok id, { p with files := p.files.insert id { f with id } }, events⟩
  | package {r : Relationship} {child stored : Package} {events : List Event}
      (accepted : p.accept child = .ok stored) :
      Added p (.package r child) ⟨.ok stored.id,
        p.setChildren r ((p.children r).insert stored.id stored trivial), events⟩

theorem added (p : Package) (item : Attachment) : p.Added item (p.add item) := by
  cases item with
  | file f =>
    rw [add, addFile]
    cases resolved : p.fileId f with
    | error e => exact .refused e
    | ok id => exact .file resolved
  | package r child =>
    rw [add_package, attach]
    cases accepted : p.accept child with
    | error e => exact .refused e
    | ok stored => exact .package accepted

/-- Everything stored carries the identifier it is stored under. -/
structure Keyed (p : Package) : Prop where
  files : ∀ entry ∈ p.files.entries, entry.2.id = entry.1
  children : ∀ r, ∀ entry ∈ (p.children r).toList, entry.2.id = entry.1

theorem Keyed.fileIds_eq {p : Package} (keyed : p.Keyed) :
    p.fileIds = p.files.entries.map Prod.fst := by
  rw [fileIds, SortedMap.values, List.map_map]
  exact List.map_congr_left keyed.files

theorem Keyed.childIds_eq {p : Package} (keyed : p.Keyed) (r : Relationship) :
    p.childIds r = (p.children r).toList.map Prod.fst :=
  List.map_congr_left (keyed.children r)

theorem keyed_childless (info : PackageInfo) (verification : Verification) (options : Options) :
    (childless info verification options).Keyed where
  files := by simp [childless, SortedMap.empty]
  children r := by cases r <;> simp [childless, children, Children.toList]

theorem children_setChildren (p : Package) (r r' : Relationship) (c : Children none) :
    (p.setChildren r c).children r' = if r' = r then c else p.children r' := by
  cases r <;> cases r' <;> rfl

theorem info_setChildren (p : Package) (r : Relationship) (c : Children none) :
    (p.setChildren r c).info = p.info := by
  cases r <;> rfl

theorem files_setChildren (p : Package) (r : Relationship) (c : Children none) :
    (p.setChildren r c).files = p.files := by
  cases r <;> rfl

theorem Keyed.add {p : Package} (keyed : p.Keyed) (item : Attachment) :
    (p.add item).state.Keyed := by
  have step := p.added item
  generalize p.add item = outcome at step ⊢
  cases step with
  | refused e => exact keyed
  | @file f id events resolved =>
    refine ⟨fun entry member => ?_, fun r => ?_⟩
    · rcases mem_insertEntry member with rfl | old
      · rfl
      · exact keyed.files entry old
    · have same := keyed.children r
      cases r <;> exact same
  | @package r child stored events accepted =>
    refine ⟨?_, fun r' entry member => ?_⟩
    · rw [files_setChildren]
      exact keyed.files
    · rw [children_setChildren] at member
      split at member
      · rw [(p.children r).toList_insert stored.id stored trivial] at member
        rcases mem_insertEntry member with rfl | old
        · rfl
        · exact keyed.children r entry old
      · exact keyed.children r' entry member

end Package
end BillOfMaterials
