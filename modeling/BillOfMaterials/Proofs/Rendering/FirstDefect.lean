import BillOfMaterials.Package.Store
import BillOfMaterials.Proofs.Error.Wrapping
import BillOfMaterials.Proofs.Rendering.Result
import BillOfMaterials.Proofs.Tree.Walk
import BillOfMaterials.Proofs.Verification.Gap

/-!
# The first defect decides

Whether a tree can be rendered is told from its packages one by one: each must have an identifier if
it has children, and summable files if they are analysed. If some package falls short, the first one
in pre-order gives the error, wrapped in the names on the way up to the root.
-/
namespace BillOfMaterials

namespace Package

/-- The package would be the nameless subject of its relationships. -/
def Unnamed (p : Package) : Prop :=
  p.id = "" ∧ (p.files.values ≠ [] ∨ p.packages.toList ≠ [] ∨ p.dependencies.toList ≠ [])

/-- The files are to be summed up and cannot be. -/
def Unsummable (p : Package) : Prop :=
  p.info.filesAnalyzed = true ∧
    (p.files.values = [] ∨ ∃ f ∈ p.files.values, f.checksums.find? "SHA1" = none)

def Defective (p : Package) : Prop := p.Unnamed ∨ p.Unsummable

/-- `Fault p e`: the defect of `p` is told by `e`; a missing identifier is told first. -/
inductive Fault (p : Package) : Error → Prop
  | unnamed (h : p.Unnamed) : Fault p (.missingInput (.ownerId p.name))
  | gap {e : Error} (named : ¬ p.Unnamed) (analyzed : p.info.filesAnalyzed = true)
      (h : Verification.Gap p.files.values e) : Fault p e

theorem hasChildren_iff (p : Package) :
    p.hasChildren = true ↔
      p.files.values ≠ [] ∨ p.packages.toList ≠ [] ∨ p.dependencies.toList ≠ [] := by
  rw [hasChildren, Bool.not_eq_true', Bool.and_eq_false_iff, Bool.and_eq_false_iff, or_assoc]
  have files : p.files.isEmpty = false ↔ p.files.values ≠ [] := by
    rw [SortedMap.isEmpty, SortedMap.values, Ne, List.map_eq_nil_iff, ← List.isEmpty_iff,
      Bool.not_eq_true]
  have packages : p.packages.isEmpty = false ↔ p.packages.toList ≠ [] := by
    rw [Ne, ← Children.isEmpty_iff, Bool.not_eq_true]
  have dependencies : p.dependencies.isEmpty = false ↔ p.dependencies.toList ≠ [] := by
    rw [Ne, ← Children.isEmpty_iff, Bool.not_eq_true]
  rw [files, packages, dependencies]

theorem unnamed_iff (p : Package) : p.Unnamed ↔ (p.id.isEmpty && p.hasChildren) = true := by
  rw [Unnamed, Bool.and_eq_true, String.isEmpty_iff, hasChildren_iff]

instance (p : Package) : Decidable p.Unnamed := decidable_of_iff' _ p.unnamed_iff

instance (p : Package) : Decidable p.Unsummable := inferInstanceAs (Decidable (_ ∧ _))

instance (p : Package) : Decidable p.Defective := inferInstanceAs (Decidable (_ ∨ _))

theorem unsummable_iff {p : Package} : p.Unsummable ↔
    p.info.filesAnalyzed = true ∧ ¬ ∃ v, Verification.ofFiles p.files.values = .ok v := by
  rw [Unsummable, Verification.ofFiles_ok_iff]
  by_cases empty : p.files.values = [] <;> simp [empty, File.checksum?_sha1]

theorem prepare_of_unnamed {p : Package} (h : p.Unnamed) :
    p.prepare = .error (.missingInput (.ownerId p.name)) := by
  rw [prepare, if_pos (p.unnamed_iff.mp h)]

theorem prepare_of_named {p : Package} (h : ¬ p.Unnamed) : p.prepare = verify p.info p.files := by
  rw [prepare, if_neg]
  rwa [← unnamed_iff]

theorem verify_of_analyzed {info : PackageInfo} (h : info.filesAnalyzed = true)
    (files : SortedMap File) : verify info files = Verification.ofFiles files.values := by
  rw [verify, if_pos h]

theorem prepare_eq_error_iff {p : Package} {e : Error} : p.prepare = .error e ↔ p.Fault e := by
  by_cases unnamed : p.Unnamed
  · rw [prepare_of_unnamed unnamed, Except.error.injEq]
    constructor
    · rintro rfl
      exact .unnamed unnamed
    · intro fault
      cases fault with
      | unnamed _ => rfl
      | gap named _ _ => exact absurd unnamed named
  · rw [prepare_of_named unnamed]
    by_cases analyzed : p.info.filesAnalyzed = true
    · rw [verify_of_analyzed analyzed, Verification.ofFiles_eq_error_iff]
      constructor
      · exact .gap unnamed analyzed
      · intro fault
        cases fault with
        | unnamed h => exact absurd h unnamed
        | gap _ _ h => exact h
    · rw [verify, if_neg analyzed]
      constructor
      · intro h
        cases h
      · intro fault
        cases fault with
        | unnamed h => exact absurd h unnamed
        | gap _ h _ => exact absurd h analyzed

theorem prepare_ok_iff {p : Package} : (∃ v, p.prepare = .ok v) ↔ ¬ p.Defective := by
  rw [Defective, not_or]
  by_cases unnamed : p.Unnamed
  · rw [prepare_of_unnamed unnamed]
    simp [unnamed]
  · rw [prepare_of_named unnamed, unsummable_iff]
    by_cases analyzed : p.info.filesAnalyzed = true
    · rw [verify_of_analyzed analyzed]
      simp [unnamed, analyzed]
    · rw [verify, if_neg analyzed]
      simp [unnamed, analyzed]

/-- Apart from a missing identifier, a fault is what summing up the files fails with. -/
theorem Fault.ofFiles {p : Package} {e : Error} (fault : p.Fault e) (named : ¬ p.Unnamed) :
    Verification.ofFiles p.files.values = .error e := by
  cases fault with
  | unnamed h => exact absurd h named
  | gap _ _ h => exact Verification.ofFiles_eq_error_iff.mpr h

theorem Fault.rootCause {p : Package} {e : Error} (fault : p.Fault e) : e.rootCause = e := by
  cases fault with
  | unnamed _ => rfl
  | gap _ _ h => exact h.rootCause

end Package

/-- The error that a rendering meets at a visit, as the caller at the root is told of it. -/
def Visit.error? (v : Visit) : Option Error :=
  match v.package.prepare with
  | .error e => some (e.withinAll (v.trail.map Package.renderContext))
  | .ok _ => none

theorem Visit.error?_below (name : String) (v : Visit) :
    (v.below name).error? = v.error?.map (.within (Package.renderContext name)) := by
  rw [Visit.error?, Visit.error?, Visit.below]
  dsimp only
  cases v.package.prepare with
  | ok _ => rfl
  | error e =>
    dsimp only
    rw [List.map_append, Error.withinAll_append]
    rfl

theorem Visit.error?_eq_none_iff (v : Visit) : v.error? = none ↔ ¬ v.package.Defective := by
  rw [← Package.prepare_ok_iff, Visit.error?]
  cases v.package.prepare <;> simp

theorem Visit.error?_eq_some_iff (v : Visit) (e : Error) :
    v.error? = some e ↔
      ∃ cause, v.package.Fault cause ∧ e = cause.withinAll (v.trail.map Package.renderContext) := by
  rw [Visit.error?]
  constructor
  · cases h : v.package.prepare with
    | ok _ => simp
    | error cause =>
      intro same
      exact ⟨cause, Package.prepare_eq_error_iff.mp h, (Option.some.inj same).symm⟩
  · rintro ⟨cause, fault, rfl⟩
    rw [Package.prepare_eq_error_iff.mpr fault]

mutual

/-- Rendering fails exactly as the first visit that meets an error. -/
theorem Package.error?_render : (p : Package) → p.render.error? = p.walk.findSome? Visit.error?
  | ⟨info, verification, files, packages, dependencies, options⟩ => by
    have contained := packages.error?_render info.id .contains
    have required := dependencies.error?_render info.id .dependsOn
    rw [Package.walk_eq, List.findSome?_cons, List.findSome?_append, Visit.error?, ← contained,
      ← required, Outcome.error?, Outcome.error?, Outcome.error?, Package.render_result]
    dsimp only [Package.id]
    cases Package.prepare ⟨info, verification, files, packages, dependencies, options⟩ with
    | error e => rfl
    | ok v =>
      cases (packages.render info.id .contains).result with
      | error e => rfl
      | ok _ => cases (dependencies.render info.id .dependsOn).result <;> rfl

theorem Children.error?_render {floor : Option String} : (c : Children floor) →
    (owner : String) → (r : Relationship) →
      (c.render owner r).error? = c.walk.findSome? Visit.error?
  | .nil, owner, r => by
    rw [Outcome.error?, Children.render_result_nil]
    rfl
  | .cons key above child rest, owner, r => by
    have first := child.error?_render
    have others := rest.error?_render owner r
    have wrapped : Visit.error? ∘ Visit.below child.info.name =
        Option.map (.within (Package.renderContext child.info.name)) ∘ Visit.error? := by
      funext v
      exact v.error?_below child.info.name
    rw [Children.walk, List.findSome?_append, List.findSome?_map, wrapped, ← List.map_findSome?,
      ← first, ← others, Outcome.error?, Outcome.error?, Outcome.error?,
      Children.render_result_cons]
    cases child.render.result with
    | error e => rfl
    | ok text => cases (rest.render owner r).result <;> rfl

end

namespace Package

/-- A tree can be rendered exactly if no package of it is defective. Otherwise the error is the
fault of the first defective package in pre-order, within one context for each package from that
one up to a child of the root. -/
theorem render_decided_by_first_defect (p : Package) :
    ((∃ text, p.render.result = .ok text) ↔ ∀ q ∈ p.preorder, ¬ q.Defective) ∧
    ∀ e, p.render.result = .error e ↔
      ∃ v cause, p.walk.find? (fun v => decide v.package.Defective) = some v ∧
        v.package.Fault cause ∧
        (¬ v.package.Unnamed → Verification.ofFiles v.package.files.values = .error cause) ∧
        e = cause.withinAll (v.trail.map renderContext) ∧ e.rootCause = cause := by
  constructor
  · rw [← Outcome.error?_eq_none_iff, error?_render, List.findSome?_eq_none_iff, preorder,
      List.forall_mem_map]
    exact forall₂_congr fun v _ => v.error?_eq_none_iff
  · intro e
    rw [← Outcome.error?_eq_some_iff, error?_render, List.findSome?_eq_some_iff]
    constructor
    · rintro ⟨front, v, back, split, failed, before⟩
      obtain ⟨cause, fault, rfl⟩ := (v.error?_eq_some_iff e).mp failed
      have defective : v.package.Defective := by
        apply Decidable.not_not.mp
        intro sound
        rw [v.error?_eq_none_iff.mpr sound] at failed
        cases failed
      refine ⟨v, cause, ?_, fault, fault.ofFiles, rfl, ?_⟩
      · rw [List.find?_eq_some_iff_append]
        refine ⟨decide_eq_true defective, front, back, split, fun w member => ?_⟩
        rw [Bool.not_eq_true', decide_eq_false_iff_not, ← w.error?_eq_none_iff]
        exact before w member
      · rw [Error.rootCause_withinAll, fault.rootCause]
    · rintro ⟨v, cause, found, fault, -, rfl, -⟩
      obtain ⟨-, front, back, split, before⟩ := List.find?_eq_some_iff_append.mp found
      refine ⟨front, v, back, split, (v.error?_eq_some_iff _).mpr ⟨cause, fault, rfl⟩, ?_⟩
      intro w member
      have sound := before w member
      rwa [Bool.not_eq_true', decide_eq_false_iff_not, ← w.error?_eq_none_iff] at sound

/-- A package to be analysed, with one file. -/
def libWith (f : File) : Package :=
  ((ofInfo { name := "lib", id := "Package-lib", filesAnalyzed := true }).addFile f).state

/-- Its parent, which is not analysed. -/
def appWith (f : File) : Package :=
  ((ofInfo { name := "app", id := "Package-app" }).addPackage (libWith f)).state

/-- A file without a SHA-1 checksum is told by its name or, when that is empty, by its identifier. -/
theorem render_decided_by_first_defect_of_appWith :
    (appWith { id := "File-main", name := "main.c" }).render.result =
        .error (.within "rendering pkg lib" (.incompleteData (.noChecksums "main.c"))) ∧
      (appWith { id := "File-blob", checksums := .ofList [("MD5", "00")] }).render.result =
        .error (.within "rendering pkg lib" (.missingChecksum "File-blob" "SHA1")) := by
  constructor
  · let main : File := { id := "File-main", name := "main.c" }
    have gap := @Verification.Gap.noChecksums [] [] main (by simp) rfl
    have fault : (libWith main).Fault _ := .gap (by decide) rfl gap
    exact ((render_decided_by_first_defect _).2 _).mpr
      ⟨⟨["lib"], libWith main⟩, _, rfl, fault, fault.ofFiles, rfl, rfl⟩
  · let blob : File := { id := "File-blob", checksums := .ofList [("MD5", "00")] }
    have gap := @Verification.Gap.noSha1 [] [] blob (by simp) (by decide) rfl
    have fault : (libWith blob).Fault _ := .gap (by decide) rfl gap
    exact ((render_decided_by_first_defect _).2 _).mpr
      ⟨⟨["lib"], libWith blob⟩, _, rfl, fault, fault.ofFiles, rfl, rfl⟩

end Package
end BillOfMaterials
