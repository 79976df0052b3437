import BillOfMaterials.Proofs.Document.Outline
import BillOfMaterials.Proofs.Store.Ledger
import BillOfMaterials.Proofs.Tree.Built
import Mathlib.Logic.Basic

/-!
# Keys in step with identifiers

A package finds its children, refuses others and orders what it prints by the keys under which they
were attached. Whatever is requested, those keys are the identifiers that attachments were answered
with. They are the identifiers that the children carry until a request changes the identifier of a
child in its place, which nothing prevents.
-/
namespace BillOfMaterials

/-- The identifiers that the children under a relationship declare, in the order of the document. -/
def Outlines.declared (r : Relationship) : Outlines → List String
  | .nil => []
  | .cons r' child rest =>
    if r' = r then child.stanza.declaredId :: rest.declared r else rest.declared r

theorem Children.declared_outline {floor : Option String} (c : Children floor)
    (r r' : Relationship) (others : Outlines) :
    (c.outline r others).declared r' =
      (if r = r' then c.toList.map fun entry => entry.2.id else []) ++ others.declared r' := by
  induction c with
  | nil => simp [outline, toList]
  | cons _ _ child rest ih =>
    rw [outline, Outlines.declared, ih, toList, child.declaredId_outline]
    split <;> simp

namespace Package

variable {p q : Package} {id : String}

theorem declared_children_outline (p : Package) (r : Relationship) :
    p.outline.children.declared r = p.childIds r := by
  cases p
  rw [outline, Children.declared_outline, Children.declared_outline]
  cases r <;> simp [childIds, children, Outlines.declared]

theorem declared_files_outline (p : Package) :
    p.outline.files.map Stanza.declaredId = p.fileIds := by
  cases p
  rw [outline, fileIds, List.map_map]
  exact List.map_congr_left fun f _ => f.declaredId_stanza

/-- A file, a sub-package or a dependency of the package carries the identifier. -/
def Carries (p : Package) (id : String) : Prop := id ∈ p.fileIds ∨ ∃ r, id ∈ p.childIds r

theorem containsId_iff : p.containsId id = true ↔
    id ∈ p.files.entries.map Prod.fst ∨ ∃ r, id ∈ (p.children r).toList.map Prod.fst := by
  rw [containsId, Option.isSome_iff_ne_none, Ne, namespaceOf_eq_none_iff, not_and_or, not_not,
    not_forall_not]

theorem Keyed.containsId_iff_carries (keyed : p.Keyed) : p.containsId id = true ↔ p.Carries id := by
  rw [containsId_iff, Carries, keyed.fileIds_eq]
  simp only [keyed.childIds_eq]

/-- A package that gets an identifier is refused exactly if the identifier is found. -/
theorem conflict_iff {child stored : Package} (resolved : child.identified = .ok stored)
    (r : Relationship) :
    (∃ takenAs, (p.add (.package r child)).result =
      .error (.conflict stored.id takenAs (some stored))) ↔ p.containsId stored.id = true := by
  rw [add_package, attach, accept, resolved, containsId]
  dsimp only
  cases p.namespaceOf stored.id with
  | none => simp
  | some takenAs => exact iff_of_true ⟨takenAs, rfl⟩ rfl

/-- What a package tells of its children is told by the identifiers they carry. -/
structure InStep (p : Package) : Prop where
  filed : p.Filed
  found : ∀ id, p.containsId id = true ↔ p.Carries id
  refused : ∀ (r : Relationship) (child stored : Package), child.identified = .ok stored →
    ((∃ takenAs, (p.add (.package r child)).result =
      .error (.conflict stored.id takenAs (some stored))) ↔ p.Carries stored.id)
  printed : ∀ text, p.render.result = .ok text → p.render.state.outline.text = text ∧
    (p.render.state.outline.files.map Stanza.declaredId).Pairwise (· < ·) ∧
    ∀ r, (p.render.state.outline.children.declared r).Pairwise (· < ·)

theorem Filed.inStep (filed : p.Filed) : p.InStep where
  filed := filed
  found _ := filed.containsId_iff_carries
  refused r child stored resolved := by
    rw [conflict_iff resolved, filed.containsId_iff_carries]
  printed text h := by
    have kept : p.render.state.Filed := upheld_filed.perform_own filed .render
    refine ⟨p.text_outline_of_render h, ?_, fun r => ?_⟩
    · rw [declared_files_outline]
      exact kept.fileIds_ascending
    · rw [declared_children_outline]
      exact kept.childIds_ascending r

/-- A call, and the hops to the package that it is on. -/
abbrev Request := List Hop × Call

/-- The package after all requests in turn. -/
def serve (p : Package) (requests : List Request) : Package :=
  requests.foldl (fun p request => (p.reach request.2.perform request.1).2) p

/-- Some request does on the package, as it is when its turn comes, what `Does` says. -/
def Meets (Does : Package → Request → Prop) (p : Package) (requests : List Request) : Prop :=
  ∃ front request back, requests = front ++ request :: back ∧ Does (p.serve front) request

/-- The request attaches something to the package itself, with the identifier for an answer. -/
def Attaches (id : String) (p : Package) (request : Request) : Prop :=
  request.1 = [] ∧ ∃ item, request.2 = .add item ∧ (p.add item).result = .ok id

/-- The request changes the identifier of a child of the package. -/
def Relabels (p : Package) (request : Request) : Prop :=
  ∃ hop child, request.1 = [hop] ∧ (p.children hop.1).find? hop.2 = some child ∧
    (request.2.perform child).2.id ≠ child.id

section Requests

variable {Does : Package → Request → Prop} {request : Request} {requests : List Request}

theorem serve_cons (p : Package) (request : Request) (requests : List Request) :
    p.serve (request :: requests) =
      (p.reach request.2.perform request.1).2.serve requests := rfl

theorem serve_append (p : Package) (front back : List Request) :
    p.serve (front ++ back) = (p.serve front).serve back := by
  rw [serve, List.foldl_append]
  rfl

theorem not_meets_nil : ¬ p.Meets Does [] := by
  rintro ⟨front, request, back, split, -⟩
  simp at split

theorem meets_cons_iff : p.Meets Does (request :: requests) ↔
    Does p request ∨ (p.reach request.2.perform request.1).2.Meets Does requests := by
  constructor
  · rintro ⟨front, request', back, split, does⟩
    cases front with
    | nil =>
      cases split
      exact .inl does
    | cons head front =>
      cases split
      exact .inr ⟨front, request', back, rfl, does⟩
  · rintro (does | ⟨front, request', back, rfl, does⟩)
    · exact ⟨[], request, requests, rfl, does⟩
    · exact ⟨request :: front, request', back, rfl, does⟩

end Requests

section Keys

theorem containsId_congr (files : q.files = p.files)
    (keys : ∀ r, (q.children r).toList.map Prod.fst = (p.children r).toList.map Prod.fst) :
    q.containsId id = p.containsId id := by
  rw [Bool.eq_iff_iff, containsId_iff, containsId_iff, files]
  simp only [keys]

theorem containsId_add (item : Attachment) : (p.add item).state.containsId id = true ↔
    p.containsId id = true ∨ (p.add item).result = .ok id := by
  by_cases admitted : ∃ stored, p.resolve item = .ok stored ∧ p.Admits stored
  · obtain ⟨stored, resolved, admits⟩ := admitted
    obtain ⟨result, -, held⟩ := add_of_admits resolved admits
    rw [← not_iff_not, not_or, Bool.not_eq_true, Bool.not_eq_true, containsId_eq_false_iff,
      containsId_eq_false_iff, result, Except.ok.injEq]
    simp only [held]
    constructor
    · intro absent
      have apart : stored.id ≠ id := by
        intro same
        simpa [same] using absent stored.space
      exact ⟨fun space => by simpa [apart] using absent space, apart⟩
    · rintro ⟨absent, apart⟩ space
      rw [if_neg fun both => apart both.1, absent]
  · obtain ⟨⟨e, failed⟩, same⟩ := add_of_not_admits fun stored resolved admits =>
      admitted ⟨stored, resolved, admits⟩
    simp [failed, same]

/-- Below the root, a request changes no key of the root. -/
theorem containsId_reach_cons {α : Type} (act : Package → α × Package) (hop : Hop)
    (more : List Hop) : (p.reach act (hop :: more)).2.containsId id = p.containsId id := by
  rcases reach_cons_state act hop more p with
    ⟨-, stuck⟩ | ⟨child, c, front, back, -, done, before, after⟩
  · rw [stuck]
  · rw [done]
    apply containsId_congr (files_setChildren p hop.1 c)
    intro r
    rw [children_setChildren]
    split
    next here => simp [here, before, after]
    next => rfl

theorem containsId_perform (c : Call) : (c.perform p).2.containsId id = true ↔
    p.containsId id = true ∨ ∃ item, c = .add item ∧ (p.add item).result = .ok id := by
  by_cases adds : ∃ item, c = .add item
  · obtain ⟨item, rfl⟩ := adds
    simp [Call.perform, containsId_add]
  · obtain ⟨files, children⟩ := Call.holdings adds p
    have keys (r : Relationship) :
        ((c.perform p).2.children r).toList.map Prod.fst = (p.children r).toList.map Prod.fst := by
      rw [keys_eq_labels, labels_congr children, ← keys_eq_labels]
    rw [containsId_congr files keys, or_iff_left]
    rintro ⟨item, same, -⟩
    exact adds ⟨item, same⟩

theorem containsId_step (request : Request) :
    (p.reach request.2.perform request.1).2.containsId id = true ↔
      p.containsId id = true ∨ p.Attaches id request := by
  obtain ⟨hops, c⟩ := request
  cases hops with
  | cons hop more => simp [containsId_reach_cons, Attaches]
  | nil => simp [reach, modifyAt, containsId_perform, Attaches]

/-- An identifier is found if an attachment was answered with it, whatever happened since. -/
theorem containsId_serve (requests : List Request) : (p.serve requests).containsId id = true ↔
    p.containsId id = true ∨ p.Meets (Attaches id) requests := by
  induction requests generalizing p with
  | nil => simp [serve, not_meets_nil]
  | cons request requests ih => rw [serve_cons, ih, containsId_step, meets_cons_iff, or_assoc]

end Keys

/-- The child under the key of a hop keeps its identifier unless the request relabels it. -/
theorem relabels_iff_of_found {hop : Hop} {child : Package}
    (found : (p.children hop.1).find? hop.2 = some child) (more : List Hop) (c : Call) :
    p.Relabels (hop :: more, c) ↔ (child.reach c.perform more).2.id ≠ child.id := by
  cases more with
  | cons hop' more =>
    -- further down, the request cannot touch what the child itself carries
    simp [Relabels, id_reach_cons]
  | nil =>
    constructor
    · rintro ⟨_, child', same, found', relabelled⟩
      cases same
      rw [found] at found'
      cases found'
      exact relabelled
    · intro relabelled
      exact ⟨hop, child, rfl, found, relabelled⟩

/-- A package stays filed exactly until a request relabels a child. -/
theorem Filed.reach_iff (filed : p.Filed) (request : Request) :
    (p.reach request.2.perform request.1).2.Filed ↔ ¬ p.Relabels request := by
  obtain ⟨hops, c⟩ := request
  cases hops with
  | nil =>
    refine iff_of_true (upheld_filed.perform_own filed c) ?_
    rintro ⟨_, _, same, -⟩
    cases same
  | cons hop more =>
    rcases reach_cons_state c.perform hop more p with
      ⟨absent, stuck⟩ | ⟨child, c', front, back, found, done, before, after⟩
    · rw [stuck]
      refine iff_of_true filed ?_
      rintro ⟨_, child, same, found, -⟩
      cases same
      rw [absent] at found
      cases found
    · -- the child stays under its key, whatever identifier the request leaves it
      rw [relabels_iff_of_found found, not_not, done]
      constructor
      · intro kept
        have own := filed.children hop.1 (hop.2, child) (by simp [before])
        have stored := kept.children hop.1 (hop.2, (child.reach c.perform more).2)
          (by simp [children_setChildren, after])
        exact stored.trans own.symm
      · intro same
        exact filed.congr (files_setChildren p hop.1 c') (labels_setChildren before after same)

/-- Along a sequence of requests, a package is in step exactly if none of them relabels a child. -/
theorem Filed.inStep_prefixes_iff (filed : p.Filed) (requests : List Request) :
    (∀ front, front <+: requests → (p.serve front).InStep) ↔ ¬ p.Meets Relabels requests := by
  induction requests generalizing p with
  | nil =>
    refine iff_of_true (fun front empty => ?_) not_meets_nil
    rw [List.prefix_nil.mp empty]
    exact filed.inStep
  | cons request requests ih =>
    rw [meets_cons_iff, not_or, ← filed.reach_iff]
    constructor
    · intro inStep
      have next := inStep [request] ⟨requests, rfl⟩
      refine ⟨next.filed, (ih next.filed).mp fun front earlier => ?_⟩
      exact inStep (request :: front) (List.cons_prefix_cons.mpr ⟨rfl, earlier⟩)
    · rintro ⟨next, none⟩ front earlier
      rcases List.prefix_cons_iff.mp earlier with rfl | ⟨front, rfl, behind⟩
      · exact filed.inStep
      · exact (ih next).mpr none front behind

/-- Whatever is requested of a package that starts without children, an identifier is found in it
exactly if something was attached to it with that answer. The package is in step all along exactly
if no request changes the identifier of a child in its place. -/
theorem keys_in_step_iff_none_relabels (info : PackageInfo) (verification : Verification)
    (options : Options) (requests : List Request) :
    let start := childless info verification options
    (∀ id, (start.serve requests).containsId id = true ↔ start.Meets (Attaches id) requests) ∧
      ((∀ front, front <+: requests → (start.serve front).InStep) ↔
        ¬ start.Meets Relabels requests) := by
  intro start
  have empty (id : String) : start.containsId id = false := rfl
  refine ⟨fun id => ?_, (filed_childless info verification options).inStep_prefixes_iff requests⟩
  simp [containsId_serve, empty]

/-- A sub-package that is renamed in its place is found under its old identifier only. -/
theorem relabelled_child_out_of_step :
    ¬ ∀ (info : PackageInfo) (requests : List Request),
      ((childless info {} {}).serve requests).InStep := by
  intro inStep
  have found := (inStep {} [([], .add (.package .contains (named "zlib"))),
    ([(.contains, "Package-zlib")], .edit fun info => { info with id := "Package-z" })]).found
  have carried := (found "Package-z").mpr (.inr ⟨.contains, by decide⟩)
  exact absurd carried (by decide)

end Package
end BillOfMaterials
