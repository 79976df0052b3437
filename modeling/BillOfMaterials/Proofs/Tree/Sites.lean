import BillOfMaterials.Proofs.Tree.Walk
import Mathlib.Data.List.Nodup

/-!
# Sites of a tree

Packages of a tree may be equal; what tells each from all others is its site, given by the hops from
the root down to it. The sites are listed in two orders: every package before all that lies below it,
or behind all of it.
-/
namespace BillOfMaterials

/-- A package of a tree where it is. -/
structure Site where
  hops : List Package.Hop
  package : Package

namespace Site

/-- The same package as it is seen from one hop further up. -/
def behind (hop : Package.Hop) (s : Site) : Site := ⟨hop :: s.hops, s.package⟩

/-- The package at `t` is that at `s` or lies below it. -/
def Holds (s t : Site) : Prop := s.hops <+: t.hops

instance (s t : Site) : Decidable (s.Holds t) := inferInstanceAs (Decidable (_ <+: _))

variable {s t : Site} {hop : Package.Hop}

theorem holds_of_same_hops (same : s.hops = t.hops) : s.Holds t :=
  ⟨[], by rw [List.append_nil, same]⟩

theorem behind_holds_behind_iff : (s.behind hop).Holds (t.behind hop) ↔ s.Holds t :=
  List.prefix_cons_inj hop

/-- What lies behind different first hops does not hold each other. -/
theorem not_holds_of_head_ne (own : s.hops.head? = some hop) (other : t.hops.head? ≠ some hop) :
    ¬ s.Holds t := by
  rintro ⟨more, split⟩
  apply other
  rw [← split, List.head?_append, own]
  rfl

end Site

mutual

/-- The sites of a tree in pre-order: sub-packages before dependencies, by ascending keys. -/
def Package.sites : Package → List Site
  | ⟨info, verification, files, packages, dependencies, options⟩ =>
    ⟨[], ⟨info, verification, files, packages, dependencies, options⟩⟩
      :: (packages.sites .contains ++ dependencies.sites .dependsOn)

def Children.sites (r : Relationship) {floor : Option String} : Children floor → List Site
  | .nil => []
  | .cons key _ child rest => child.sites.map (Site.behind (r, key)) ++ rest.sites r

end

mutual

/-- The sites of a tree in post-order: sub-packages before dependencies, by ascending keys. -/
def Package.postorder : Package → List Site
  | ⟨info, verification, files, packages, dependencies, options⟩ =>
    packages.postorder .contains ++ dependencies.postorder .dependsOn
      ++ [⟨[], ⟨info, verification, files, packages, dependencies, options⟩⟩]

def Children.postorder (r : Relationship) {floor : Option String} : Children floor → List Site
  | .nil => []
  | .cons key _ child rest => child.postorder.map (Site.behind (r, key)) ++ rest.postorder r

end

theorem Package.sites_eq (p : Package) :
    p.sites = ⟨[], p⟩ :: (p.packages.sites .contains ++ p.dependencies.sites .dependsOn) := by
  cases p
  rw [Package.sites]

theorem Package.postorder_eq (p : Package) : p.postorder =
    p.packages.postorder .contains ++ p.dependencies.postorder .dependsOn ++ [⟨[], p⟩] := by
  cases p
  rw [Package.postorder]

mutual

theorem Package.map_package_sites : (p : Package) → p.sites.map Site.package = p.preorder
  | ⟨info, verification, files, packages, dependencies, options⟩ => by
    rw [Package.preorder_eq, Package.sites, List.map_cons, List.map_append,
      packages.map_package_sites, dependencies.map_package_sites]

theorem Children.map_package_sites (r : Relationship) {floor : Option String} :
    (c : Children floor) → (c.sites r).map Site.package = c.preorder
  | .nil => rfl
  | .cons key above child rest => by
    have seen : Site.package ∘ Site.behind (r, key) = Site.package := rfl
    rw [Children.preorder_cons, Children.sites, List.map_append, List.map_map, seen,
      child.map_package_sites, rest.map_package_sites r]

end

mutual

theorem Package.postorder_perm : (p : Package) → p.postorder.Perm p.sites
  | ⟨info, verification, files, packages, dependencies, options⟩ => by
    rw [Package.postorder, Package.sites]
    refine List.perm_append_comm.trans (.cons _ ?_)
    exact (packages.postorder_perm .contains).append (dependencies.postorder_perm .dependsOn)

theorem Children.postorder_perm (r : Relationship) {floor : Option String} :
    (c : Children floor) → (c.postorder r).Perm (c.sites r)
  | .nil => .refl _
  | .cons _ _ child rest => by
    rw [Children.postorder, Children.sites]
    exact (child.postorder_perm.map _).append (rest.postorder_perm r)

end

section Hops

variable {floor : Option String} {c : Children floor} {r r' : Relationship} {s t : Site}

theorem Children.head_of_mem_sites (h : s ∈ c.sites r) :
    ∃ key ∈ c.toList.map Prod.fst, s.hops.head? = some (r, key) := by
  induction c with
  | nil => cases h
  | cons key _ child rest ih =>
    rw [sites, List.mem_append, List.mem_map] at h
    rw [toList, List.map_cons]
    rcases h with ⟨_, -, rfl⟩ | later
    · exact ⟨key, List.mem_cons_self .., rfl⟩
    · obtain ⟨key', member, head⟩ := ih later
      exact ⟨key', List.mem_cons_of_mem _ member, head⟩

theorem Children.hops_ne_nil (h : s ∈ c.sites r) : s.hops ≠ [] := by
  obtain ⟨_, -, head⟩ := head_of_mem_sites h
  intro root
  rw [root] at head
  cases head

/-- A site below the first of several children and one below the others are apart. -/
theorem Children.not_holds_rest {key : String} {rest : Children (some key)}
    (h : t ∈ rest.sites r) (first : Site) : ¬ (first.behind (r, key)).Holds t := by
  obtain ⟨key', member, head⟩ := head_of_mem_sites h
  refine Site.not_holds_of_head_ne rfl ?_
  rw [head]
  intro same
  obtain rfl : key' = key := (Prod.mk.inj (Option.some.inj same)).2
  exact String.lt_irrefl key' (rest.keys_above key' member)

theorem Package.not_holds_dependency (p : Package) (here : s ∈ p.packages.sites .contains)
    (there : t ∈ p.dependencies.sites .dependsOn) : ¬ s.Holds t := by
  obtain ⟨key, -, head⟩ := Children.head_of_mem_sites here
  obtain ⟨key', -, head'⟩ := Children.head_of_mem_sites there
  refine Site.not_holds_of_head_ne head ?_
  rw [head']
  intro same
  cases (Prod.mk.inj (Option.some.inj same)).1

end Hops

mutual

/-- No two packages of a tree are reached by the same hops. -/
theorem Package.nodup_hops : (p : Package) → (p.sites.map Site.hops).Nodup
  | ⟨info, verification, files, packages, dependencies, options⟩ => by
    let p : Package := ⟨info, verification, files, packages, dependencies, options⟩
    rw [Package.sites, List.map_cons, List.map_append, List.nodup_cons, List.nodup_append]
    refine ⟨?_, packages.nodup_hops .contains, dependencies.nodup_hops .dependsOn, ?_⟩
    · rw [← List.map_append, List.mem_map]
      rintro ⟨s, member, root⟩
      rcases List.mem_append.mp member with contained | required
      · exact Children.hops_ne_nil contained root
      · exact Children.hops_ne_nil required root
    · intro hops contained hops' required same
      obtain ⟨s, here, rfl⟩ := List.mem_map.mp contained
      obtain ⟨t, there, rfl⟩ := List.mem_map.mp required
      exact p.not_holds_dependency here there (Site.holds_of_same_hops same)

theorem Children.nodup_hops (r : Relationship) {floor : Option String} :
    (c : Children floor) → ((c.sites r).map Site.hops).Nodup
  | .nil => .nil
  | .cons key _ child rest => by
    rw [Children.sites, List.map_append, List.nodup_append]
    refine ⟨?_, rest.nodup_hops r, ?_⟩
    · have seen : Site.hops ∘ Site.behind (r, key) = List.cons (r, key) ∘ Site.hops := rfl
      rw [List.map_map, seen, ← List.map_map]
      exact child.nodup_hops.map (List.cons_injective)
    · intro hops first hops' later same
      obtain ⟨_, below, rfl⟩ := List.mem_map.mp first
      obtain ⟨s, -, rfl⟩ := List.mem_map.mp below
      obtain ⟨t, there, rfl⟩ := List.mem_map.mp later
      exact Children.not_holds_rest there s (Site.holds_of_same_hops same)

end
end BillOfMaterials
