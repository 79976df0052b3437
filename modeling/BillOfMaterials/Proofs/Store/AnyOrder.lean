import BillOfMaterials.Proofs.Store.Ledger
import Mathlib.Data.List.Nodup

/-!
# Attaching in any order

Attachments whose identifiers all resolve and all differ never get in each other's way: each is
answered with its own identifier, and the package they lead to is the same in every order, also if
the packages among them were put together in different orders themselves.
-/
namespace BillOfMaterials.Package

/-- The identifier that an attachment resolves to. -/
def resolvedId (p : Package) (item : Attachment) : Except Error String :=
  (p.resolve item).map Attachment.id

/-- The replies to attachments made in turn. -/
def answers (p : Package) : List Attachment → List (Except Error String)
  | [] => []
  | item :: rest => (p.add item).result :: (p.add item).state.answers rest

/-- What the attachments that resolve are resolved to. -/
def resolveAll (p : Package) (items : List Attachment) : List Attachment :=
  items.filterMap fun item => (p.resolve item).toOption

/-- Every identifier resolves, each to another one. -/
structure Distinct (p : Package) (items : List Attachment) : Prop where
  resolved : ∀ item ∈ items, ∃ id, p.resolvedId item = .ok id
  nodup : (items.map p.resolvedId).Nodup

variable {start p : Package} {ledger ledger' items items' : List Attachment}

theorem Distinct.perm (distinct : start.Distinct items) (perm : items.Perm items') :
    start.Distinct items' where
  resolved item member := distinct.resolved item (perm.mem_iff.mpr member)
  nodup := (perm.map _).nodup_iff.mp distinct.nodup

theorem resolvedId_eq_ok_iff {item : Attachment} {id : String} :
    start.resolvedId item = .ok id ↔
      ∃ stored, start.resolve item = .ok stored ∧ stored.id = id := by
  rw [resolvedId]
  cases start.resolve item <;> simp [Except.map]

theorem resolveAll_cons {item stored : Attachment} (resolved : start.resolve item = .ok stored) :
    start.resolveAll (item :: items) = stored :: start.resolveAll items := by
  simp [resolveAll, resolved, Except.toOption]

/-- Attachments with distinct identifiers that the ledger does not list are all entered, and each is
answered with its identifier. -/
theorem Distinct.answers_and_ledger (distinct : start.Distinct items)
    (follows : start.Follows ledger p)
    (fresh : ∀ item ∈ items, ∀ listed ∈ ledger, start.resolvedId item ≠ .ok listed.id) :
    p.answers items = items.map start.resolvedId ∧
      items.foldl start.enter ledger = (start.resolveAll items).reverse ++ ledger ∧
      ((start.resolveAll items).map Attachment.id).map .ok = items.map start.resolvedId := by
  induction items generalizing ledger p with
  | nil => exact ⟨rfl, rfl, rfl⟩
  | cons item items ih =>
    obtain ⟨id, first⟩ := distinct.resolved item (List.mem_cons_self ..)
    obtain ⟨stored, found, rfl⟩ := resolvedId_eq_ok_iff.mp first
    obtain ⟨apart, others⟩ := List.nodup_cons.mp distinct.nodup
    have new : stored.id ∉ ledger.map Attachment.id := by
      intro listed
      obtain ⟨old, member, same⟩ := List.mem_map.mp listed
      exact fresh item (List.mem_cons_self ..) old member (same ▸ first)
    have taken := taken?_eq_some_iff.mpr ⟨found, .inr new⟩
    have entered : start.enter ledger item = stored :: ledger := by rw [enter, taken]; rfl
    obtain ⟨here, admits⟩ := follows.taken?_eq_some_iff.mp taken
    have step := (follows.add item).2
    rw [entered] at step
    have rest : start.Distinct items :=
      ⟨fun other member => distinct.resolved other (List.mem_cons_of_mem _ member), others⟩
    obtain ⟨answered, kept, listed⟩ := ih rest step fun other member old => by
      rw [List.mem_cons]
      rintro (rfl | older)
      · intro same
        exact apart (first ▸ same ▸ List.mem_map_of_mem member)
      · exact fresh other (List.mem_cons_of_mem _ member) old older
    refine ⟨?_, ?_, ?_⟩
    · rw [answers, List.map_cons, first, (add_of_admits here admits).1, answered]
    · rw [List.foldl_cons, entered, kept, resolveAll_cons found]
      simp
    · rw [resolveAll_cons found, List.map_cons, List.map_cons, List.map_cons, listed, first]

/-- With all identifiers distinct, a ledger shows all that it lists. -/
theorem newest_eq_some_iff_of_nodup (nodup : (ledger.map Attachment.id).Nodup) {id : String}
    {space : Namespace} {stored : Attachment} :
    newest ledger id space = some stored ↔
      stored ∈ ledger ∧ stored.id = id ∧ stored.space = space := by
  constructor
  · exact mem_of_newest
  · rintro ⟨member, rfl, rfl⟩
    cases found : newest ledger stored.id stored.space with
    | none =>
      have absent := List.find?_eq_none.mp found stored member
      simp at absent
    | some other =>
      obtain ⟨listed, same, -⟩ := mem_of_newest found
      rw [List.inj_on_of_nodup_map nodup listed member same]

theorem Follows.perm (follows : start.Follows ledger p) (perm : ledger.Perm ledger')
    (nodup : (ledger.map Attachment.id).Nodup) : start.Follows ledger' p where
  info := follows.info
  verification := follows.verification
  options := follows.options
  held id space := by
    have nodup' : (ledger'.map Attachment.id).Nodup := (perm.map _).nodup_iff.mp nodup
    ext stored
    rw [follows.held, newest_eq_some_iff_of_nodup nodup, newest_eq_some_iff_of_nodup nodup',
      perm.mem_iff]

/-- The ledger of a permutation is a permutation of the ledger, and so shows the same. -/
theorem Distinct.addAll_perm (distinct : start.Distinct items) (empty : start.Follows [] start)
    (perm : items.Perm items') : start.addAll items = start.addAll items' := by
  obtain ⟨-, kept, listed⟩ := distinct.answers_and_ledger empty (by simp)
  obtain ⟨-, kept', -⟩ := (distinct.perm perm).answers_and_ledger empty (by simp)
  -- calls need not be exchanged one by one: a ledger determines the package that follows it
  have ran := empty.addAll items
  have ran' := empty.addAll items'
  rw [kept, List.append_nil] at ran
  rw [kept', List.append_nil] at ran'
  have resolved : (start.resolveAll items).Perm (start.resolveAll items') := perm.filterMap _
  have ledgers : (start.resolveAll items).reverse.Perm (start.resolveAll items').reverse :=
    (List.reverse_perm _).trans (resolved.trans (List.reverse_perm _).symm)
  have nodup : ((start.resolveAll items).reverse.map Attachment.id).Nodup := by
    rw [List.map_reverse, List.nodup_reverse]
    exact List.Nodup.of_map Except.ok (listed ▸ distinct.nodup)
  exact (ran.perm ledgers nodup).unique ran'

theorem Distinct.answers_eq (distinct : start.Distinct items) (empty : start.Follows [] start) :
    start.answers items = items.map start.resolvedId :=
  (distinct.answers_and_ledger empty (by simp)).1

/-- A package without children follows the empty ledger. -/
theorem follows_of_childless (childless : start.hasChildren = false) : start.Follows [] start := by
  obtain ⟨info, verification, ⟨files, ascending⟩, packages, dependencies, options⟩ := start
  cases files <;> cases packages <;> cases dependencies <;>
    simp [hasChildren, SortedMap.isEmpty, Children.isEmpty] at childless
  exact follows_childless info verification options

mutual

/-- Two packages put together from the same parts, which may have been attached in other orders and
may have been put together in other orders themselves. -/
inductive Reassembled : Package → Package → Prop
  | same (p : Package) : Reassembled p p
  | attached {start : Package} {items order items' : List Attachment}
      (childless : start.hasChildren = false) (distinct : start.Distinct items)
      (perm : items.Perm order) (parts : ReassembledParts order items') :
      Reassembled (start.addAll items) (start.addAll items')

/-- The same attachments in the same order, the packages among them reassembled. -/
inductive ReassembledParts : List Attachment → List Attachment → Prop
  | nil : ReassembledParts [] []
  | file (f : File) {items items' : List Attachment} (rest : ReassembledParts items items') :
      ReassembledParts (.file f :: items) (.file f :: items')
  | package (r : Relationship) {child child' : Package} {items items' : List Attachment}
      (part : Reassembled child child') (rest : ReassembledParts items items') :
      ReassembledParts (.package r child :: items) (.package r child' :: items')

end

mutual

theorem Reassembled.eq : {p q : Package} → Reassembled p q → p = q
  | _, _, .same p => rfl
  | _, _, .attached childless distinct perm parts => by
    rw [← parts.eq]
    exact distinct.addAll_perm (follows_of_childless childless) perm

theorem ReassembledParts.eq : {items items' : List Attachment} →
    ReassembledParts items items' → items = items'
  | _, _, .nil => rfl
  | _, _, .file f rest => by rw [rest.eq]
  | _, _, .package r part rest => by rw [part.eq, rest.eq]

end

/-- Attachments whose identifiers all resolve and all differ lead to one package in every order, of
their own parts as well, so to one document or error. Every call succeeds and is answered with the
identifier of what it attaches. -/
theorem addAll_in_any_order {order : List Attachment} (childless : start.hasChildren = false)
    (distinct : start.Distinct items) (perm : items.Perm order)
    (parts : ReassembledParts order items') :
    start.addAll items = start.addAll items' ∧
      start.answers items = items.map start.resolvedId ∧
      start.answers items' = order.map start.resolvedId ∧
      ∀ answer ∈ start.answers items', ∃ id, answer = .ok id := by
  have empty := follows_of_childless childless
  have distinct' := distinct.perm perm
  rw [← parts.eq]
  have answered := distinct'.answers_eq empty
  refine ⟨distinct.addAll_perm empty perm, distinct.answers_eq empty, answered, ?_⟩
  rw [answered, List.forall_mem_map]
  exact distinct'.resolved

/-- Both levels in two orders, with an identifier of each kind synthesised. -/
theorem addAll_in_any_order_on_two_levels :
    let start := named "app"
    let lib := named "lib"
    let license : Attachment := .file { id := "License" }
    let zlib : Attachment := .package .dependsOn (named "zlib")
    let main : Attachment := .file { name := "main.c" }
    let items := [main, .package .contains (lib.addAll [license, zlib])]
    let items' := [.package .contains (lib.addAll [zlib, license]), main]
    start.hasChildren = false ∧ start.Distinct items ∧ start.addAll items = start.addAll items' := by
  intro start lib license zlib main items items'
  have licensed : lib.resolvedId license = .ok "License" := rfl
  have required : lib.resolvedId zlib = .ok "Package-zlib" := rfl
  have hashed : start.resolvedId main =
      .ok ("File-" ++ Algorithm.sha1.hashText (Identifier.fileKey "app" "main.c")) := rfl
  have info : (lib.addAll [license, zlib]).info = lib.info :=
    ((follows_of_childless rfl).addAll _).info
  have contained : start.resolvedId (.package .contains (lib.addAll [license, zlib])) =
      .ok "Package-lib" := by
    have synthesised : Identifier.ofPackage "lib" = .ok "Package-lib" := rfl
    have unnamed : lib.info.id = "" := rfl
    have called : lib.info.name = "lib" := rfl
    simp [resolvedId, resolve, identified, id, name, info, unnamed, called, synthesised, Except.map,
      withId, Attachment.id]
  have below : lib.Distinct [license, zlib] :=
    ⟨by simp [licensed, required], by simp [licensed, required]⟩
  have kinds (digest : String) : "File-" ++ digest ≠ "Package-lib" := by
    intro same
    have chars := congrArg String.toList same
    simp at chars
  have above : start.Distinct items :=
    ⟨by simp [items, hashed, contained], by simp [items, hashed, contained, kinds]⟩
  refine ⟨rfl, above, (addAll_in_any_order rfl above (List.Perm.swap _ _ _) ?_).1⟩
  exact .package _ (.attached rfl below (List.Perm.swap _ _ _)
    (.package _ (.same _) (.file _ .nil))) (.file _ .nil)

end BillOfMaterials.Package
