import BillOfMaterials.Proofs.Rendering.Session
import BillOfMaterials.Proofs.Store.Filed
import BillOfMaterials.Proofs.Store.Lookup

/-!
# Trees built by calls

A tree is built by calls on its root and on the packages below, starting without children. As long
as no call changes the identifier of a package that has been attached, every package of the tree
keeps what attaching files and packages to it keeps: in particular, everything stays under the
identifier it carries.
-/
namespace BillOfMaterials

/-- An action on the child under a key changes the entry of that child and no other. -/
theorem Children.modify_eq {α : Type} (act : Package → α × Package) (key : String)
    {floor : Option String} (c : Children floor) :
    (c.find? key = none ∧ c.modify key act = none) ∨
      ∃ child c' front back, c.find? key = some child ∧
        c.modify key act = some ((act child).1, c') ∧ c.toList = front ++ (key, child) :: back ∧
        c'.toList = front ++ (key, (act child).2) :: back := by
  induction c with
  | nil => exact .inl ⟨rfl, rfl⟩
  | cons key' above' child' rest ih =>
    rw [find?, toList, lookup_cons_eq, modify, ← find?]
    by_cases same : key' = key
    · subst same
      rw [if_pos rfl, if_pos rfl]
      exact .inr ⟨child', _, [], rest.toList, rfl, rfl, rfl, rfl⟩
    · rw [if_neg same, if_neg (Ne.symm same)]
      rcases ih with ⟨absent, stuck⟩ | ⟨child, c', front, back, found, done, before, after⟩
      · exact .inl ⟨absent, by rw [stuck]; rfl⟩
      · refine .inr ⟨child, cons key' above' child' c', (key', child') :: front, back, found, ?_, ?_,
          ?_⟩
        · rw [done]
          rfl
        · rw [before, List.cons_append]
        · rw [toList, after, List.cons_append]

namespace Package

variable {p q : Package} {P : Package → Prop}

theorem id_reach_cons {α : Type} (act : Package → α × Package) (hop : Hop) (more : List Hop)
    (p : Package) : (p.reach act (hop :: more)).2.id = p.id := by
  rw [reach_cons]
  split
  · cases hop.1 <;> rfl
  · rfl

theorem id_reach {α : Type} {act : Package → α × Package} (keeps : ∀ q, (act q).2.id = q.id)
    (hops : List Hop) (p : Package) : (p.reach act hops).2.id = p.id := by
  cases hops with
  | nil => exact keeps p
  | cons hop more => exact id_reach_cons act hop more p

/-- Behind a hop, an action changes one child, or nothing if there is no child under the key. -/
theorem reach_cons_state {α : Type} (act : Package → α × Package) (hop : Hop) (more : List Hop)
    (p : Package) :
    ((p.children hop.1).find? hop.2 = none ∧ (p.reach act (hop :: more)).2 = p) ∨
      ∃ child c front back, (p.children hop.1).find? hop.2 = some child ∧
        (p.reach act (hop :: more)).2 = p.setChildren hop.1 c ∧
        (p.children hop.1).toList = front ++ (hop.2, child) :: back ∧
        c.toList = front ++ (hop.2, (child.reach act more).2) :: back := by
  rw [reach_cons]
  rcases (p.children hop.1).modify_eq (reach act more) hop.2 with
    ⟨absent, stuck⟩ | ⟨child, c, front, back, found, done, before, after⟩
  · exact .inl ⟨absent, by rw [stuck]⟩
  · refine .inr ⟨child, c, front, back, found, ?_, before, after⟩
    rw [done]
    cases result : (child.reach act more).1 with
    | some _ => rfl
    | none =>
      -- nothing was reached below the child either, so that it stays as it was
      have kept : (child.reach act more).2 = child := by
        rw [reach] at result ⊢
        cases below : modifyAt act more child with
        | none => rfl
        | some found =>
          rw [below] at result
          cases result
      rw [kept, ← before] at after
      rw [Children.ext_toList after, setChildren_children]

/-- The keys of the children under a relationship, each with the identifier that its child
carries. -/
def labels (p : Package) (r : Relationship) : List (String × String) :=
  (p.children r).toList.map fun entry => (entry.1, entry.2.id)

theorem keys_eq_labels (p : Package) (r : Relationship) :
    (p.children r).toList.map Prod.fst = (p.labels r).map Prod.fst := by
  rw [labels, List.map_map]
  rfl

theorem childIds_eq_labels (p : Package) (r : Relationship) :
    p.childIds r = (p.labels r).map Prod.snd := by
  rw [labels, List.map_map]
  rfl

theorem labels_lasting (p : Package) (r : Relationship) : p.lasting.labels r = p.labels r := by
  have carried (q : Package) : q.lasting.id = q.id := by
    cases q
    rfl
  rw [labels, children_lasting, Children.lasting, Children.toList_mapOwn, List.map_map]
  exact List.map_congr_left fun entry _ => Prod.ext rfl (carried entry.2)

theorem labels_congr (children : ∀ r, (q.children r).lasting = (p.children r).lasting)
    (r : Relationship) : q.labels r = p.labels r := by
  rw [← labels_lasting q, ← labels_lasting p, labels, labels, children_lasting, children_lasting,
    children r]

/-- Putting another child with the same identifier under a key changes no label. -/
theorem labels_setChildren {r : Relationship} {c : Children none} {key : String}
    {front back : List (String × Package)} {child child' : Package}
    (before : (p.children r).toList = front ++ (key, child) :: back)
    (after : c.toList = front ++ (key, child') :: back) (same : child'.id = child.id)
    (r' : Relationship) : (p.setChildren r c).labels r' = p.labels r' := by
  rw [labels, labels, children_setChildren]
  split
  next here => simp [here, before, after, same]
  next => rfl

theorem files_lasting (p : Package) : p.lasting.files = p.files := by
  cases p
  rfl

theorem files_render (p : Package) : p.render.state.files = p.files := by
  rw [← files_lasting, p.lasting_render, files_lasting]

/-- Up to summaries, attaching is the only call that changes what a package holds. -/
theorem Call.holdings {c : Call} (other : ¬ ∃ item, c = .add item) (p : Package) :
    (c.perform p).2.files = p.files ∧
      ∀ r, ((c.perform p).2.children r).lasting = (p.children r).lasting := by
  cases c with
  | add item => exact absurd ⟨item, rfl⟩ other
  | edit change => exact ⟨rfl, fun r => by cases r <;> rfl⟩
  | setOptions options => exact ⟨rfl, fun r => by cases r <;> rfl⟩
  | readSource fs path =>
    rw [perform, Package.readSource, Package.readSourceDuring]
    split
    · exact ⟨rfl, fun _ => rfl⟩
    · split
      · exact ⟨rfl, fun _ => rfl⟩
      · exact ⟨rfl, fun r => by cases r <;> rfl⟩
  | render =>
    rw [perform]
    refine ⟨p.files_render, fun r => ?_⟩
    rw [← children_lasting, p.lasting_render, children_lasting]

theorem eq_withId_of_identified {child stored : Package} (h : child.identified = .ok stored) :
    ∃ id, stored = child.withId id := by
  rw [identified] at h
  split at h
  · cases found : Identifier.ofPackage child.name with
    | error e =>
      rw [found] at h
      cases h
    | ok id =>
      rw [found] at h
      exact ⟨id, (Except.ok.inj h).symm⟩
  · rw [← Except.ok.inj h]
    refine ⟨child.id, ?_⟩
    cases child
    rfl

/-- A property of packages that depends on what they hold their files and children under, that they
have without children, and that attaching to them keeps. -/
structure Upheld (P : Package → Prop) : Prop where
  childless (info : PackageInfo) (verification : Verification) (options : Options) :
    P (childless info verification options)
  congr {p q : Package} (own : P p) (files : q.files = p.files)
    (labels : ∀ r, q.labels r = p.labels r) : P q
  add {p : Package} (own : P p) (item : Attachment) : P (p.add item).state

/-- What a package holds its files and children under decides whether it is filed. -/
theorem Filed.congr (filed : p.Filed) (files : q.files = p.files)
    (labels : ∀ r, q.labels r = p.labels r) : q.Filed where
  files := by
    rw [files]
    exact filed.files
  named_files := by
    rw [files]
    exact filed.named_files
  children r := by
    have own : ∀ label ∈ p.labels r, label.2 = label.1 := List.forall_mem_map.mpr (filed.children r)
    rw [← labels r] at own
    exact List.forall_mem_map.mp own
  named_children r := by
    rw [keys_eq_labels, labels r, ← keys_eq_labels]
    exact filed.named_children r

theorem upheld_filed : Upheld Filed where
  childless := filed_childless
  congr := Filed.congr
  add := Filed.add

/-- Every package of the tree has the property. -/
def Throughout (P : Package → Prop) (p : Package) : Prop := ∀ q ∈ p.preorder, P q

theorem throughout_iff : Throughout P p ↔
    P p ∧ ∀ r, ∀ entry ∈ (p.children r).toList, Throughout P entry.2 :=
  forall_preorder_iff

/-- Throughout the tree, everything is stored under the identifier it carries, and none is empty. -/
def FiledThroughout (p : Package) : Prop := ∀ q ∈ p.preorder, q.Filed

theorem filedThroughout_iff : p.FiledThroughout ↔
    p.Filed ∧ ∀ r, ∀ entry ∈ (p.children r).toList, entry.2.FiledThroughout :=
  forall_preorder_iff

namespace Upheld

theorem lasting_iff (upheld : Upheld P) : P p.lasting ↔ P p := by
  constructor
  · intro own
    exact upheld.congr own p.files_lasting.symm fun r => (p.labels_lasting r).symm
  · intro own
    exact upheld.congr own p.files_lasting p.labels_lasting

theorem throughout_lasting_iff (upheld : Upheld P) :
    Throughout P p.lasting ↔ Throughout P p := by
  rw [Throughout, lasting, preorder_mapOwn, List.forall_mem_map]
  exact forall₂_congr fun q _ => upheld.lasting_iff

theorem throughout_children_iff (upheld : Upheld P) {floor : Option String} (c : Children floor) :
    (∀ entry ∈ c.lasting.toList, Throughout P entry.2) ↔
      ∀ entry ∈ c.toList, Throughout P entry.2 := by
  rw [Children.lasting, Children.toList_mapOwn, List.forall_mem_map]
  exact forall₂_congr fun entry _ => upheld.throughout_lasting_iff

/-- Nothing but what a package holds matters, its own identifier included. -/
theorem congr_children (upheld : Upheld P) (h : Throughout P p) (files : q.files = p.files)
    (children : ∀ r, (q.children r).lasting = (p.children r).lasting) : Throughout P q := by
  obtain ⟨own, below⟩ := throughout_iff.mp h
  refine throughout_iff.mpr ⟨upheld.congr own files (labels_congr children), fun r => ?_⟩
  rw [← upheld.throughout_children_iff, children r, upheld.throughout_children_iff]
  exact below r

theorem add_throughout (upheld : Upheld P) (h : Throughout P p) (item : Attachment)
    (parts : ∀ r child, item = .package r child → Throughout P child) :
    Throughout P (p.add item).state := by
  obtain ⟨own, below⟩ := throughout_iff.mp h
  refine throughout_iff.mpr ⟨upheld.add own item, ?_⟩
  have step := p.added item
  generalize p.add item = outcome at step ⊢
  cases step with
  | refused e => exact below
  | file resolved =>
    intro r
    cases r
    · exact below .contains
    · exact below .dependsOn
  | @package r child stored events accepted =>
    intro r' entry member
    rw [children_setChildren] at member
    split at member
    · rw [(p.children r).toList_insert stored.id stored trivial] at member
      rcases mem_insertEntry member with rfl | old
      · obtain ⟨id, rfl⟩ := eq_withId_of_identified (accept_eq_ok_iff.mp accepted).1
        exact upheld.congr_children (parts r child rfl) rfl fun r => by cases r <;> rfl
      · exact below r entry old
    · exact below r' entry member

/-- A call on a package keeps a property of it. -/
theorem perform_own (upheld : Upheld P) (own : P p) (c : Call) : P (c.perform p).2 := by
  by_cases adds : ∃ item, c = .add item
  · obtain ⟨item, rfl⟩ := adds
    exact upheld.add own item
  · obtain ⟨files, children⟩ := Call.holdings adds p
    exact upheld.congr own files (labels_congr children)

/-- A call keeps a property throughout a tree if what it attaches has it throughout. -/
theorem perform (upheld : Upheld P) (h : Throughout P p) (c : Call)
    (parts : ∀ r child, c = .add (.package r child) → Throughout P child) :
    Throughout P (c.perform p).2 := by
  by_cases adds : ∃ item, c = .add item
  · obtain ⟨item, rfl⟩ := adds
    exact upheld.add_throughout h item fun r child same => parts r child (congrArg Call.add same)
  · obtain ⟨files, children⟩ := Call.holdings adds p
    exact upheld.congr_children h files children

theorem setChildren (upheld : Upheld P) (h : Throughout P p) {r : Relationship}
    {c : Children none} {key : String} {front back : List (String × Package)}
    {child child' : Package} (before : (p.children r).toList = front ++ (key, child) :: back)
    (after : c.toList = front ++ (key, child') :: back) (same : child'.id = child.id)
    (part : Throughout P child') : Throughout P (p.setChildren r c) := by
  obtain ⟨own, below⟩ := throughout_iff.mp h
  have kept := upheld.congr own (files_setChildren p r c) (labels_setChildren before after same)
  refine throughout_iff.mpr ⟨kept, fun r' => ?_⟩
  rw [children_setChildren]
  split
  · intro entry member
    rw [after, List.mem_append, List.mem_cons] at member
    rcases member with old | rfl | old
    · exact below r entry (before ▸ List.mem_append_left _ old)
    · exact part
    · exact below r entry (before ▸ List.mem_append_right _ (List.mem_cons_of_mem _ old))
  · exact below r'

/-- Below the root, an action has to keep identifiers as well. -/
theorem reach {α : Type} {act : Package → α × Package} (upheld : Upheld P)
    (preserves : ∀ q, Throughout P q → Throughout P (act q).2) {hops : List Hop}
    (keeps : hops ≠ [] → ∀ q, (act q).2.id = q.id) (h : Throughout P p) :
    Throughout P (p.reach act hops).2 := by
  induction hops generalizing p with
  | nil => exact preserves p h
  | cons hop more ih =>
    have keeps : ∀ q, (act q).2.id = q.id := keeps (List.cons_ne_nil _ _)
    rcases reach_cons_state act hop more p with
      ⟨-, stuck⟩ | ⟨child, c, front, back, -, done, before, after⟩
    · rwa [stuck]
    · -- the hop keeps the key of its child, so the child has to keep its identifier
      have below := (throughout_iff.mp h).2 hop.1 (hop.2, child) (by simp [before])
      rw [done]
      exact upheld.setChildren h before after (id_reach keeps more child)
        (ih (fun _ => keeps) below)

end Upheld

/-- A tree that calls have built. A call is on the root, or on a package below it if it keeps
identifiers, and what it attaches has been built itself. -/
inductive Built : Package → Prop
  | start (info : PackageInfo) (verification : Verification) (options : Options) :
    Built (childless info verification options)
  | call {p : Package} (built : Built p) (hops : List Hop) (c : Call)
      (parts : ∀ r child, c = .add (.package r child) → Built child)
      (kept : hops ≠ [] → ∀ q, (c.perform q).2.id = q.id) : Built (p.reach c.perform hops).2

theorem Built.attach {child : Package} (built : p.Built) (part : child.Built) (r : Relationship) :
    (p.reach (Call.add (.package r child)).perform []).2.Built := by
  refine built.call [] _ (fun r' child' same => ?_) (absurd rfl)
  cases same
  exact part

theorem Built.throughout (upheld : Upheld P) (built : p.Built) : Throughout P p := by
  induction built with
  | start info verification options =>
    refine throughout_iff.mpr ⟨upheld.childless info verification options, fun r => ?_⟩
    cases r <;> simp [Package.childless, children, Children.toList]
  | call _ hops c parts kept ih below =>
    exact upheld.reach (fun q h => upheld.perform h c below) kept ih

theorem Built.filedThroughout (built : p.Built) : p.FiledThroughout := built.throughout upheld_filed

end Package
end BillOfMaterials
