import BillOfMaterials.Package.Store
import BillOfMaterials.Proofs.Rendering.FirstDefect
import BillOfMaterials.Proofs.Tree.Sites
import Mathlib.Data.List.TakeWhile

/-!
# The log of a rendering

Rendering logs a package when it is done with everything below it, and stops at the first defect that
it meets on its way down. What has been logged by then is therefore told by two orders of the tree:
of the packages in post-order, it is those below which, in pre-order, nothing comes at or behind the
defect.
-/
namespace BillOfMaterials

/-- What is logged of a package that has been rendered: its identifier, and how many files,
sub-packages and dependencies it holds. -/
def Package.renderedEvent (p : Package) : Event :=
  .packageRendered p.id p.files.values.length p.packages.toList.length p.dependencies.toList.length

theorem SortedMap.size_eq_length_values {α : Type} (m : SortedMap α) :
    m.size = m.values.length := by
  rw [size, values, List.length_map]

namespace Site

def sound (s : Site) : Bool := decide ¬ s.package.Defective

def event (s : Site) : Event := s.package.renderedEvent

/-- None of the sites ahead is that of the package or below it. -/
def DoneBefore (s : Site) (ahead : List Site) : Prop := ∀ t ∈ ahead, ¬ s.Holds t

instance (s : Site) (ahead : List Site) : Decidable (s.DoneBefore ahead) :=
  inferInstanceAs (Decidable (∀ t ∈ ahead, _))

end Site

/-- From the first defective site on. -/
def fromDefect (sites : List Site) : List Site := sites.dropWhile Site.sound

/-- The sites that are done when those ahead are not yet reached. -/
def done (ahead sites : List Site) : List Site :=
  sites.filter fun s => decide (s.DoneBefore ahead)

section Done

variable {ahead front back sites sites' : List Site} {s : Site} {hop : Package.Hop}

theorem fromDefect_eq_nil_iff : fromDefect sites = [] ↔ sites.all Site.sound = true := by
  rw [fromDefect, List.dropWhile_eq_nil_iff, List.all_eq_true]

theorem fromDefect_append_of_sound (h : sites.all Site.sound = true) :
    fromDefect (sites ++ sites') = fromDefect sites' := by
  rw [fromDefect, List.dropWhile_append_of_pos (List.all_eq_true.mp h), fromDefect]

theorem fromDefect_append_of_not_sound (h : ¬ sites.all Site.sound = true) :
    fromDefect (sites ++ sites') = fromDefect sites ++ sites' := by
  rw [fromDefect, List.dropWhile_append, if_neg, fromDefect]
  rwa [List.isEmpty_iff, ← fromDefect, fromDefect_eq_nil_iff]

theorem fromDefect_behind : fromDefect (sites.map (Site.behind hop)) =
    (fromDefect sites).map (Site.behind hop) := by
  rw [fromDefect, List.dropWhile_map]
  rfl

theorem done_append : done ahead (sites ++ sites') = done ahead sites ++ done ahead sites' :=
  List.filter_append ..

theorem done_nil : done [] sites = sites := by
  simp [done, Site.DoneBefore]

/-- Nothing is done of what lies ahead as a whole. -/
theorem done_eq_nil (h : sites ⊆ ahead) : done ahead sites = [] := by
  rw [done, List.filter_eq_nil_iff]
  intro s member finished
  exact of_decide_eq_true finished s (h member) (Site.holds_of_same_hops rfl)

/-- Sites ahead that lie below none of those listed do not matter. -/
theorem done_ahead_append (h : ∀ s ∈ sites, ∀ t ∈ back, ¬ s.Holds t) :
    done (front ++ back) sites = done front sites := by
  refine List.filter_congr fun s member => ?_
  rw [decide_eq_decide, Site.DoneBefore, List.forall_mem_append]
  exact and_iff_left (h s member)

theorem done_behind : done (ahead.map (Site.behind hop)) (sites.map (Site.behind hop)) =
    (done ahead sites).map (Site.behind hop) := by
  rw [done, List.filter_map, done]
  congr 1
  refine List.filter_congr fun s _ => ?_
  rw [Function.comp_apply, decide_eq_decide, Site.DoneBefore, List.forall_mem_map]
  simp only [Site.behind_holds_behind_iff]
  rfl

/-- The root is done when nothing is left ahead. -/
theorem done_root (sites : List Site) (p : Package) :
    done (fromDefect sites) [⟨[], p⟩] = if sites.all Site.sound then [⟨[], p⟩] else [] := by
  split
  next sound => rw [fromDefect_eq_nil_iff.mpr sound, done_nil]
  next unsound =>
    rw [← fromDefect_eq_nil_iff] at unsound
    obtain ⟨t, more, ahead⟩ := List.exists_cons_of_ne_nil unsound
    rw [done, List.filter_eq_nil_iff]
    intro s member finished
    rw [List.mem_singleton.mp member, ahead] at finished
    exact of_decide_eq_true finished t (List.mem_cons_self ..) List.nil_prefix

/-- What is done of two parts of a tree that are walked one behind the other. -/
theorem done_of_parts {first second first' second' : List Site}
    (apart : ∀ s ∈ first', ∀ t ∈ second, ¬ s.Holds t) (within : second' ⊆ second) :
    done (fromDefect (first ++ second)) (first' ++ second') =
      done (fromDefect first) first' ++
        if first.all Site.sound then done (fromDefect second) second' else [] := by
  rw [done_append]
  split
  next sound =>
    rw [fromDefect_append_of_sound sound, fromDefect_eq_nil_iff.mpr sound, done_nil]
    congr 1
    refine List.filter_eq_self.mpr fun s member => decide_eq_true fun t ahead => ?_
    exact apart s member t ((List.dropWhile_sublist _).subset ahead)
  next unsound =>
    -- the whole second part is still ahead, and none of it lies below a site of the first
    rw [fromDefect_append_of_not_sound unsound, done_ahead_append apart,
      done_eq_nil fun s member => List.mem_append_right _ (within member)]

end Done

namespace Package

theorem all_sound_iff (p : Package) :
    p.sites.all Site.sound = true ↔ ∀ q ∈ p.preorder, ¬ q.Defective := by
  simp [← p.map_package_sites, Site.sound]

theorem render_ok_iff_sound (p : Package) :
    (∃ text, p.render.result = .ok text) ↔ p.sites.all Site.sound = true := by
  rw [all_sound_iff, preorder, List.forall_mem_map, ← Outcome.error?_eq_none_iff, error?_render,
    List.findSome?_eq_none_iff]
  exact forall₂_congr fun v _ => v.error?_eq_none_iff

end Package

theorem Children.render_ok_iff_sound {floor : Option String} (c : Children floor) (owner : String)
    (r : Relationship) :
    (∃ text, (c.render owner r).result = .ok text) ↔ (c.sites r).all Site.sound = true := by
  have sound : (c.sites r).all Site.sound = true ↔ ∀ q ∈ c.preorder, ¬ q.Defective := by
    simp [← c.map_package_sites r, Site.sound]
  rw [sound, preorder, List.forall_mem_map, ← Outcome.error?_eq_none_iff, error?_render,
    List.findSome?_eq_none_iff]
  exact forall₂_congr fun v _ => v.error?_eq_none_iff

namespace Package

theorem events_of_defective (p : Package) (h : p.Defective) : p.render.events = [] := by
  cases prepared : p.prepare with
  | ok v => exact absurd h (prepare_ok_iff.mp ⟨v, prepared⟩)
  | error e => rw [render_of_prepare_error prepared]

/-- A sound package logs what its parts log as far as they are reached, and itself at the end. -/
theorem events_of_sound (p : Package) (h : ¬ p.Defective) :
    p.render.events = (p.packages.render p.id .contains).events ++
      if (p.packages.sites .contains).all Site.sound then
        (p.dependencies.render p.id .dependsOn).events ++
          if (p.dependencies.sites .dependsOn).all Site.sound then [p.renderedEvent] else []
      else [] := by
  obtain ⟨v, prepared⟩ := prepare_ok_iff.mpr h
  have contained := p.packages.render_ok_iff_sound p.id .contains
  have required := p.dependencies.render_ok_iff_sound p.id .dependsOn
  cases p
  dsimp only [id] at contained required ⊢
  rw [render, prepared]
  dsimp only
  split
  next e failed =>
    rw [if_neg, List.append_nil]
    rw [← contained, failed]
    simp
  next text ended =>
    rw [if_pos (contained.mp ⟨text, ended⟩)]
    split
    next e failed =>
      rw [if_neg, List.append_nil]
      rw [← required, failed]
      simp
    next text' ended' =>
      rw [if_pos (required.mp ⟨text', ended'⟩), ← List.append_assoc, renderedEvent,
        ← SortedMap.size_eq_length_values]
      rfl

end Package

theorem Children.events_cons {floor : Option String} (owner : String) (r : Relationship)
    (key : String) (above : Above floor key) (child : Package) (rest : Children (some key)) :
    ((cons key above child rest).render owner r).events = child.render.events ++
      if child.sites.all Site.sound then (rest.render owner r).events else [] := by
  have first := child.render_ok_iff_sound
  rw [render]
  dsimp only
  split
  next e failed =>
    rw [if_neg, List.append_nil]
    rw [← first, failed]
    simp
  next text ended =>
    rw [if_pos (first.mp ⟨text, ended⟩)]
    split <;> rfl

mutual

/-- What a rendering logs are the sites in post-order that are done before the first defect. -/
theorem Package.events_render : (p : Package) →
    p.render.events = (done (fromDefect p.sites) p.postorder).map Site.event
  | ⟨info, verification, files, packages, dependencies, options⟩ => by
    have contained := packages.events_render info.id .contains
    have required := dependencies.events_render info.id .dependsOn
    let p : Package := ⟨info, verification, files, packages, dependencies, options⟩
    change p.render.events = (done (fromDefect p.sites) p.postorder).map Site.event
    by_cases defective : p.Defective
    · have ahead : fromDefect p.sites = p.sites := by
        rw [p.sites_eq, fromDefect, List.dropWhile_cons_of_neg]
        simpa [Site.sound] using defective
      rw [p.events_of_defective defective, ahead, done_eq_nil p.postorder_perm.subset]
      rfl
    · have ahead : fromDefect p.sites =
          fromDefect (packages.sites .contains ++ dependencies.sites .dependsOn) := by
        rw [p.sites_eq, fromDefect, List.dropWhile_cons_of_pos]
        · rfl
        · simpa [Site.sound] using defective
      have apart : ∀ s ∈ packages.postorder .contains, ∀ t ∈ dependencies.sites .dependsOn,
          ¬ s.Holds t := by
        intro s below t
        exact p.not_holds_dependency ((packages.postorder_perm .contains).subset below)
      rw [p.events_of_sound defective, ahead, p.postorder_eq, done_append, done_root,
        done_of_parts apart (dependencies.postorder_perm .dependsOn).subset, List.all_append]
      dsimp only [p, Package.id]
      rw [contained, required]
      cases (packages.sites .contains).all Site.sound with
      | false => simp
      | true => cases (dependencies.sites .dependsOn).all Site.sound <;> simp [Site.event]

theorem Children.events_render {floor : Option String} : (c : Children floor) →
    (owner : String) → (r : Relationship) →
      (c.render owner r).events = (done (fromDefect (c.sites r)) (c.postorder r)).map Site.event
  | .nil, owner, r => by
    rw [Children.render]
    rfl
  | .cons key above child rest, owner, r => by
    have first := child.events_render
    have others := rest.events_render owner r
    have seen : Site.event ∘ Site.behind (r, key) = Site.event := rfl
    have sound : (child.sites.map (Site.behind (r, key))).all Site.sound =
        child.sites.all Site.sound := List.all_map
    rw [Children.sites, Children.postorder, done_of_parts, fromDefect_behind, done_behind, sound,
      List.map_append, List.map_map, seen, Children.events_cons, first, others]
    · congr 1
      split <;> rfl
    · intro s below t later
      obtain ⟨s, -, rfl⟩ := List.mem_map.mp below
      exact Children.not_holds_rest later s
    · exact (rest.postorder_perm r).subset

end

namespace Package

/-- A successful rendering logs every package of the tree once, in post-order, and nothing else. One
that fails logs, in the same order, the packages that are done with everything below them when the
first defective package in pre-order is reached; neither that one nor a package above it is. -/
theorem render_logs_what_is_done (p : Package) :
    (p.sites.map Site.hops).Nodup ∧ p.postorder.Perm p.sites ∧
    (∀ event ∈ p.render.events, event.message = "package rendered") ∧
    (∀ text, p.render.result = .ok text → p.render.events = p.postorder.map Site.event) ∧
    ∀ e, p.render.result = .error e →
      ∃ front defect back, p.sites = front ++ defect :: back ∧
        (∀ s ∈ front, ¬ s.package.Defective) ∧ defect.package.Defective ∧
        p.render.events = (p.postorder.filter fun s =>
          decide (s.DoneBefore (defect :: back))).map Site.event ∧
        ∀ s : Site, s.Holds defect → ¬ s.DoneBefore (defect :: back) := by
  refine ⟨p.nodup_hops, p.postorder_perm, ?_, fun text rendered => ?_, fun e failed => ?_⟩
  · rw [p.events_render, List.forall_mem_map]
    exact fun _ _ => rfl
  · have sound := p.render_ok_iff_sound.mp ⟨text, rendered⟩
    rw [p.events_render, fromDefect_eq_nil_iff.mpr sound, done_nil]
  · have unsound : fromDefect p.sites ≠ [] := by
      rw [Ne, fromDefect_eq_nil_iff, ← p.render_ok_iff_sound, failed]
      simp
    obtain ⟨defect, back, ahead⟩ := List.exists_cons_of_ne_nil unsound
    refine ⟨p.sites.takeWhile Site.sound, defect, back, ?_, ?_, ?_, ?_, ?_⟩
    · rw [← ahead, fromDefect, List.takeWhile_append_dropWhile]
    · intro s member
      have sound : s.sound = true := List.mem_takeWhile_imp member
      exact of_decide_eq_true sound
    · have stopped := List.head?_dropWhile_not Site.sound p.sites
      rw [← fromDefect, ahead] at stopped
      simpa [Site.sound] using stopped
    · rw [p.events_render, ahead]
      rfl
    · intro s holds before
      exact before defect (List.mem_cons_self ..) holds

/-- Of three sub-packages the second is to be analysed and has no files; the first has a file and a
dependency. -/
def haltedAtSecond : Package :=
  let leaf (name : String) (filesAnalyzed : Bool) := ofInfo { name, id := name, filesAnalyzed }
  let owning := ((leaf "a" false).addFile { id := "main", name := "main.c" }).state
  let first := (owning.addDependency (leaf "z" false)).state
  let app := ((leaf "app" false).addPackage first).state
  ((app.addPackage (leaf "b" true)).state.addPackage (leaf "c" false)).state

/-- The first sub-package is logged behind its dependency, and nothing after it. -/
theorem render_logs_what_is_done_of_haltedAtSecond :
    (∃ e, haltedAtSecond.render.result = .error e) ∧
      haltedAtSecond.render.events = [.packageRendered "z" 0 0 0, .packageRendered "a" 1 0 1] ∧
      ∃ front defect back, haltedAtSecond.sites = front ++ defect :: back ∧
        defect.package.Defective ∧ haltedAtSecond.render.events =
          (haltedAtSecond.postorder.filter fun s =>
            decide (s.DoneBefore (defect :: back))).map Site.event := by
  refine ⟨⟨_, rfl⟩, rfl, ?_⟩
  obtain ⟨front, defect, back, split, -, defective, logged, -⟩ :=
    haltedAtSecond.render_logs_what_is_done.2.2.2.2 _ rfl
  exact ⟨front, defect, back, split, defective, logged⟩

end Package
end BillOfMaterials
