import BillOfMaterials.Proofs.Rendering.Result
import BillOfMaterials.Proofs.Tree.Own

/-!
# What a rendering reads and leaves behind

A rendering leaves a tree that differs from the old one in its summaries alone; a successful one
leaves exactly the tree with all summaries brought up to date. The result depends on no summary, nor
on any of the data that documents do not show.
-/
namespace BillOfMaterials

namespace Package

/-- Without what renderings leave behind. -/
def Own.lasting (o : Own) : Own := { o with verification := {} }

/-- With the summary that a rendering computes, if it can. -/
def Own.refreshed (o : Own) : Own :=
  { o with verification := match verify o.info o.files with
    | .ok verification => verification
    | .error _ => o.verification }

end Package

/-- Without the data that documents do not show. -/
def PackageInfo.shown (info : PackageInfo) : PackageInfo :=
  { info with sourceFile := "", supplier := {}, originator := {}, licenseComments := "" }

/-- Without the data that documents do not show. -/
def File.shown (f : File) : File := { f with fileName := "", sourceFile := "" }

/-- Applies a function to every value and keeps the keys. -/
def SortedMap.mapValues {α β : Type} (f : α → β) (m : SortedMap α) : SortedMap β :=
  ⟨m.entries.map fun entry => (entry.1, f entry.2), by
    rw [List.map_map]
    exact m.ascending⟩

theorem SortedMap.values_mapValues {α β : Type} (f : α → β) (m : SortedMap α) :
    (m.mapValues f).values = m.values.map f := by
  rw [values, values, mapValues, List.map_map, List.map_map]
  rfl

namespace Package

/-- Without what renderings leave behind and the data that documents do not show. -/
def Own.shown (o : Own) : Own :=
  ⟨o.info.shown, {}, o.files.mapValues File.shown, {}⟩

def lasting (p : Package) : Package := p.mapOwn Own.lasting

def refreshed (p : Package) : Package := p.mapOwn Own.refreshed

def shown (p : Package) : Package := p.mapOwn Own.shown

theorem lasting_lasting (p : Package) : p.lasting.lasting = p.lasting :=
  p.mapOwn_mapOwn Own.lasting Own.lasting

theorem shown_lasting (p : Package) : p.lasting.shown = p.shown :=
  p.mapOwn_mapOwn Own.shown Own.lasting

theorem refreshed_refreshed (p : Package) : p.refreshed.refreshed = p.refreshed := by
  have twice : Own.refreshed ∘ Own.refreshed = Own.refreshed := by
    funext o
    rw [Function.comp_apply, Own.refreshed, Own.refreshed]
    cases verify o.info o.files <;> rfl
  rw [refreshed, refreshed, mapOwn_mapOwn, twice]

end Package

def Children.lasting {floor : Option String} (c : Children floor) : Children floor :=
  c.mapOwn Package.Own.lasting

mutual

theorem Package.lasting_render : (p : Package) → p.render.state.lasting = p.lasting
  | ⟨info, verification, files, packages, dependencies, options⟩ => by
    have contained := packages.lasting_render info.id .contains
    have required := dependencies.lasting_render info.id .dependsOn
    rw [Package.render]
    cases Package.prepare ⟨info, verification, files, packages, dependencies, options⟩ with
    | error e => rfl
    | ok v =>
      dsimp only
      cases (packages.render info.id .contains).result with
      | error e =>
        dsimp only
        rw [Package.lasting, Package.lasting, Package.mapOwn, Package.mapOwn]
        rw [Children.lasting, Children.lasting] at contained
        rw [contained]
        rfl
      | ok _ =>
        dsimp only
        have state : (Package.mk info v files (packages.render info.id .contains).state
            (dependencies.render info.id .dependsOn).state options).lasting =
            Package.lasting ⟨info, verification, files, packages, dependencies, options⟩ := by
          rw [Package.lasting, Package.lasting, Package.mapOwn, Package.mapOwn]
          rw [Children.lasting, Children.lasting] at contained required
          rw [contained, required]
          rfl
        cases (dependencies.render info.id .dependsOn).result <;> exact state

theorem Children.lasting_render {floor : Option String} : (c : Children floor) →
    (owner : String) → (r : Relationship) → (c.render owner r).state.lasting = c.lasting
  | .nil, owner, r => by rw [Children.render]
  | .cons key above child rest, owner, r => by
    have first := child.lasting_render
    have others := rest.lasting_render owner r
    rw [Package.lasting, Package.lasting] at first
    rw [Children.lasting, Children.lasting] at others
    rw [Children.render, Children.lasting, Children.lasting]
    dsimp only
    cases child.render.result with
    | error e =>
      dsimp only
      rw [Children.mapOwn, Children.mapOwn, first]
    | ok text =>
      dsimp only
      cases (rest.render owner r).result <;>
        (dsimp only; rw [Children.mapOwn, Children.mapOwn, first, others])

end

mutual

/-- A successful rendering brings every summary up to date and changes nothing else. -/
theorem Package.state_render_of_ok : (p : Package) → {text : String} →
    p.render.result = .ok text → p.render.state = p.refreshed
  | ⟨info, verification, files, packages, dependencies, options⟩, text, h => by
    obtain ⟨v, _, _, prepared, contained, required, -, state⟩ := Package.render_ok h
    have summed := Package.verify_of_prepare prepared
    rw [state, packages.state_render_of_ok contained, dependencies.state_render_of_ok required,
      Package.refreshed, Package.mapOwn, Package.Own.refreshed, summed]

theorem Children.state_render_of_ok {floor : Option String} : (c : Children floor) →
    {owner : String} → {r : Relationship} → {text : String} →
      (c.render owner r).result = .ok text →
        (c.render owner r).state = c.mapOwn Package.Own.refreshed
  | .nil, owner, r, text, h => by
    rw [Children.render]
    rfl
  | .cons key above child rest, owner, r, text, h => by
    obtain ⟨_, _, first, others, -, state⟩ := Children.render_ok_cons h
    rw [state, child.state_render_of_ok first, rest.state_render_of_ok others, Children.mapOwn,
      Package.refreshed]

end

theorem Verification.ofFiles_shown (files : List File) :
    ofFiles (files.map File.shown) = ofFiles files := by
  rw [ofFiles, ofFiles, checksums, checksums, List.mapM_map, listedLicenses, listedLicenses,
    licenseTags, licenseTags, List.map_map]
  rfl

namespace Package

theorem verify_shown (info : PackageInfo) (files : SortedMap File) :
    verify info.shown (files.mapValues File.shown) = verify info files := by
  rw [verify, verify, SortedMap.values_mapValues, Verification.ofFiles_shown]
  rfl

theorem document_shown (info : PackageInfo) (verification : Verification)
    (files : SortedMap File) (packages dependencies : String) :
    document info.shown verification (files.mapValues File.shown) packages dependencies =
      document info verification files packages dependencies := by
  rw [document, document, SortedMap.values_mapValues, renderFiles, renderFiles, List.map_map]
  rfl

theorem prepare_shown (p : Package) : p.shown.prepare = p.prepare := by
  cases p with
  | mk info verification files packages dependencies options =>
    have owns : hasChildren (shown ⟨info, verification, files, packages, dependencies, options⟩) =
        hasChildren ⟨info, verification, files, packages, dependencies, options⟩ := by
      rw [hasChildren, hasChildren, shown, mapOwn]
      dsimp only
      rw [Children.isEmpty_mapOwn, Children.isEmpty_mapOwn, SortedMap.isEmpty, SortedMap.isEmpty,
        Own.shown, SortedMap.mapValues, List.isEmpty_map]
    rw [prepare, prepare, owns]
    exact congrArg _ (verify_shown info files)

end Package

mutual

theorem Package.render_shown : (p : Package) → p.shown.render.result = p.render.result
  | ⟨info, verification, files, packages, dependencies, options⟩ => by
    have prepared := Package.prepare_shown
      ⟨info, verification, files, packages, dependencies, options⟩
    rw [Package.render_result, Package.render_result, prepared]
    rw [Package.shown, Package.mapOwn]
    dsimp only [Package.id, Package.Own.shown]
    rw [packages.render_shown, dependencies.render_shown]
    simp only [Package.document_shown]
    rfl

theorem Children.render_shown {floor : Option String} : (c : Children floor) →
    (owner : String) → (r : Relationship) →
      ((c.mapOwn Package.Own.shown).render owner r).result = (c.render owner r).result
  | .nil, owner, r => rfl
  | .cons key above child rest, owner, r => by
    rw [Children.mapOwn, Children.render_result_cons, Children.render_result_cons,
      rest.render_shown]
    rw [← Package.shown, child.render_shown]
    cases child
    rfl

end

namespace Package

/-- Trees that agree on everything but their summaries and what documents do not show have the same
result. -/
theorem render_result_of_shown_eq {p q : Package} (same : p.shown = q.shown) :
    p.render.result = q.render.result := by
  rw [← p.render_shown, ← q.render_shown, same]

theorem render_result_of_lasting_eq {p q : Package} (same : p.lasting = q.lasting) :
    p.render.result = q.render.result := by
  apply render_result_of_shown_eq
  rw [← p.shown_lasting, ← q.shown_lasting, same]

/-- After a successful rendering another one gives the same text and changes nothing. -/
theorem render_again {p : Package} {text : String} (h : p.render.result = .ok text) :
    p.render.state.render.result = .ok text ∧ p.render.state.render.state = p.render.state := by
  have again : p.render.state.render.result = .ok text := by
    rw [← h]
    exact render_result_of_lasting_eq p.lasting_render
  refine ⟨again, ?_⟩
  rw [state_render_of_ok _ again, p.state_render_of_ok h, refreshed_refreshed]

end Package
end BillOfMaterials
