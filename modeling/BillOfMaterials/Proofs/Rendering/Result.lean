import BillOfMaterials.Package.Render
import BillOfMaterials.Proofs.Outcome

/-!
# The result of a rendering

A rendering goes through the tree once and carries a result, a new tree and events. Here the result
is told apart from the other two: it is that of the package's own preparation, then of its
sub-packages, then of its dependencies, the first error ending it.
-/
namespace BillOfMaterials

namespace Package

/-- The document of a package around those of its sub-packages and dependencies. -/
def document (info : PackageInfo) (verification : Verification) (files : SortedMap File)
    (packages dependencies : String) : String :=
  header ("Package: " ++ info.name) ++ (fields info verification).render
    ++ renderFiles info.id files.values ++ packages ++ dependencies

theorem verify_of_prepare {p : Package} {verification : Verification}
    (h : p.prepare = .ok verification) : verify p.info p.files = .ok verification := by
  rw [prepare] at h
  split at h
  · cases h
  · exact h

theorem render_result (p : Package) :
    p.render.result = (do
      let verification ← p.prepare
      let packages ← (p.packages.render p.id .contains).result
      let dependencies ← (p.dependencies.render p.id .dependsOn).result
      return document p.info verification p.files packages dependencies) := by
  cases p with
  | mk info verification files packages dependencies options =>
    rw [render]
    cases prepare ⟨info, verification, files, packages, dependencies, options⟩ with
    | error e => rfl
    | ok verification =>
      dsimp only [id]
      cases (packages.render info.id .contains).result with
      | error e => rfl
      | ok packagesText =>
        dsimp only
        cases (dependencies.render info.id .dependsOn).result <;> rfl

/-- What the files amount to is kept, even if a child cannot be rendered afterwards. -/
theorem verification_render {p : Package} {verification : Verification}
    (h : p.prepare = .ok verification) : p.render.state.verification = verification := by
  cases p
  rw [render, h]
  dsimp only
  split
  · rfl
  · split <;> rfl

/-- A package that cannot be prepared stays as it was. -/
theorem render_of_prepare_error {p : Package} {e : Error} (h : p.prepare = .error e) :
    p.render = ⟨.error e, p, []⟩ := by
  cases p
  rw [render, h]

/-- What a successful rendering has gone through, and the tree it leaves. -/
theorem render_ok {p : Package} {text : String} (h : p.render.result = .ok text) :
    ∃ verification packages dependencies, p.prepare = .ok verification ∧
      (p.packages.render p.id .contains).result = .ok packages ∧
      (p.dependencies.render p.id .dependsOn).result = .ok dependencies ∧
      text = document p.info verification p.files packages dependencies ∧
      p.render.state = ⟨p.info, verification, p.files, (p.packages.render p.id .contains).state,
        (p.dependencies.render p.id .dependsOn).state, p.options⟩ := by
  rw [render_result, bind_eq_ok] at h
  obtain ⟨verification, prepared, h⟩ := h
  rw [bind_eq_ok] at h
  obtain ⟨packages, contained, h⟩ := h
  rw [bind_eq_ok] at h
  obtain ⟨dependencies, required, h⟩ := h
  refine ⟨verification, packages, dependencies, prepared, contained, required, ?_, ?_⟩
  · exact (Except.ok.inj h).symm
  · cases p
    dsimp only [id] at contained required
    rw [render, prepared]
    dsimp only
    rw [contained]
    dsimp only
    rw [required]
    rfl

end Package

namespace Children

variable {floor : Option String}

theorem render_result_nil (owner : String) (r : Relationship) :
    ((nil : Children floor).render owner r).result = .ok "" := by
  rw [render]

theorem render_result_cons (owner : String) (r : Relationship) (key : String)
    (above : Above floor key) (child : Package) (rest : Children (some key)) :
    ((cons key above child rest).render owner r).result = (do
      let text ← child.render.result.mapError (.within (Package.renderContext child.name))
      let more ← (rest.render owner r).result
      return text ++ r.line owner child.id ++ more) := by
  rw [render]
  dsimp only
  cases child.render.result with
  | error e => rfl
  | ok text =>
    dsimp only
    cases (rest.render owner r).result <;> rfl

theorem render_ok_cons {owner : String} {r : Relationship} {key : String}
    {above : Above floor key} {child : Package} {rest : Children (some key)} {text : String}
    (h : ((cons key above child rest).render owner r).result = .ok text) :
    ∃ first more, child.render.result = .ok first ∧ (rest.render owner r).result = .ok more ∧
      text = first ++ r.line owner child.id ++ more ∧
      ((cons key above child rest).render owner r).state =
        cons key above child.render.state (rest.render owner r).state := by
  rw [render_result_cons, bind_eq_ok] at h
  obtain ⟨first, rendered, h⟩ := h
  rw [bind_eq_ok] at h
  obtain ⟨more, others, h⟩ := h
  rw [mapError_eq_ok] at rendered
  refine ⟨first, more, rendered, others, (Except.ok.inj h).symm, ?_⟩
  rw [render]
  dsimp only
  rw [rendered]
  dsimp only
  rw [others]

end Children
end BillOfMaterials
