import BillOfMaterials.Proofs.Store.Filed
import BillOfMaterials.Proofs.Store.Lookup

/-!
# The ledger of a package

A ledger lists what was accepted, newest first, each with its identifier filled in. It can be kept
without the package: it takes every file whose identifier resolves, and every package whose
identifier resolves to one it does not list yet. A package that starts empty follows its ledger: it
answers as the ledger takes, and holds the newest entry of each identifier and kind, nothing else.
-/
namespace BillOfMaterials

namespace Attachment

/-- The identifier that an attachment carries, which may still be empty. -/
def id : Attachment → String
  | .file f => f.id
  | .package _ child => child.id

/-- What an attachment uses its identifier for. -/
def space : Attachment → Namespace
  | .file _ => .file
  | .package .contains _ => .subpackage
  | .package .dependsOn _ => .dependency

theorem space_package_ne_file (r : Relationship) (child : Package) :
    (Attachment.package r child).space ≠ .file := by
  cases r <;> simp [space]

end Attachment

namespace Package

/-- An attachment with its identifier filled in. -/
def resolve (p : Package) : Attachment → Except Error Attachment
  | .file f => (p.fileId f).map fun id => .file { f with id }
  | .package r child => child.identified.map (.package r)

/-- What a package has under an identifier, by what the identifier is used for. -/
def held (p : Package) (id : String) : Namespace → Option Attachment
  | .file => (p.file? id).map .file
  | .subpackage => (p.packages.find? id).map (.package .contains)
  | .dependency => (p.dependencies.find? id).map (.package .dependsOn)

/-- A file is always admitted, a package only under an identifier that nothing has. -/
def Admits (p : Package) (stored : Attachment) : Prop :=
  stored.space = .file ∨ p.containsId stored.id = false

theorem resolve_congr {p q : Package} (same : p.info = q.info) : p.resolve = q.resolve := by
  funext item
  cases item with
  | file f => simp only [resolve, fileId, name, same]
  | package r child => rfl

theorem resolve_package_eq_ok_iff {p child : Package} {r : Relationship} {stored : Attachment} :
    p.resolve (.package r child) = .ok stored ↔
      ∃ c, child.identified = .ok c ∧ stored = .package r c := by
  rw [resolve]
  cases child.identified <;> simp [Except.map, eq_comm]

theorem resolve_file_eq_ok_iff {p : Package} {f : File} {stored : Attachment} :
    p.resolve (.file f) = .ok stored ↔
      ∃ id, p.fileId f = .ok id ∧ stored = .file { f with id } := by
  rw [resolve]
  cases p.fileId f <;> simp [Except.map, eq_comm]

theorem space_of_resolve {p : Package} {item stored : Attachment}
    (resolved : p.resolve item = .ok stored) : stored.space = item.space := by
  cases item with
  | file f =>
    obtain ⟨id, -, rfl⟩ := resolve_file_eq_ok_iff.mp resolved
    rfl
  | package r child =>
    obtain ⟨c, -, rfl⟩ := resolve_package_eq_ok_iff.mp resolved
    cases r <;> rfl

theorem resolve_of_id_ne_empty (p : Package) {item : Attachment} (given : item.id ≠ "") :
    p.resolve item = .ok item := by
  cases item with
  | file f =>
    have named : f.id ≠ "" := given
    simp [resolve, fileId, named, Except.map]
  | package r child =>
    have named : child.id ≠ "" := given
    simp [resolve, identified, named, Except.map]

theorem resolve_file_of_id_eq_empty (p : Package) {f : File} (none : f.id = "") :
    p.resolve (.file f) =
      (Identifier.ofFile p.name f.name).map fun id => .file { f with id } := by
  simp [resolve, fileId, none]

theorem resolve_package_of_id_eq_empty (p : Package) (r : Relationship) {child : Package}
    (none : child.id = "") :
    p.resolve (.package r child) =
      (Identifier.ofPackage child.name).map fun id => .package r (child.withId id) := by
  rw [resolve, identified, none]
  cases Identifier.ofPackage child.name <;> rfl

/-- What is resolved has an identifier, and so resolves to itself. -/
theorem resolve_of_resolve {p : Package} {item stored : Attachment}
    (resolved : p.resolve item = .ok stored) : p.resolve stored = .ok stored := by
  apply resolve_of_id_ne_empty
  cases item with
  | file f =>
    obtain ⟨id, found, rfl⟩ := resolve_file_eq_ok_iff.mp resolved
    exact fileId_ne_empty found
  | package r child =>
    obtain ⟨c, found, rfl⟩ := resolve_package_eq_ok_iff.mp resolved
    exact id_ne_empty_of_identified found

theorem held_space_package (p : Package) (r : Relationship) (child : Package) (id : String) :
    p.held id (Attachment.package r child).space = ((p.children r).find? id).map (.package r) := by
  cases r <;> rfl

theorem containsId_eq_false_iff (p : Package) (id : String) :
    p.containsId id = false ↔ ∀ space, p.held id space = none := by
  rw [containsId, Option.isSome_eq_false_iff, Option.isNone_iff_eq_none, namespaceOf_eq_none_iff,
    ← SortedMap.find?_eq_none_iff, Relationship.forall_iff, ← Children.find?_eq_none_iff,
    ← Children.find?_eq_none_iff]
  constructor
  · rintro ⟨files, packages, dependencies⟩ space
    cases space with
    | file => exact Option.map_eq_none_iff.mpr files
    | subpackage => exact Option.map_eq_none_iff.mpr packages
    | dependency => exact Option.map_eq_none_iff.mpr dependencies
  · intro absent
    exact ⟨Option.map_eq_none_iff.mp (absent .file), Option.map_eq_none_iff.mp (absent .subpackage),
      Option.map_eq_none_iff.mp (absent .dependency)⟩

theorem admits_file (p : Package) (f : File) : p.Admits (.file f) := .inl rfl

theorem admits_package_iff (p : Package) (r : Relationship) (child : Package) :
    p.Admits (.package r child) ↔ p.namespaceOf child.id = none := by
  rw [Admits, or_iff_right (Attachment.space_package_ne_file r child), containsId,
    Option.isSome_eq_false_iff, Option.isNone_iff_eq_none]
  rfl

/-- What is admitted is answered with its identifier and held under it; nothing else changes. -/
theorem add_of_admits {p : Package} {item stored : Attachment}
    (resolved : p.resolve item = .ok stored) (admits : p.Admits stored) :
    (p.add item).result = .ok stored.id ∧
    (∃ files packages dependencies, (p.add item).state =
      ⟨p.info, p.verification, files, packages, dependencies, p.options⟩) ∧
    ∀ id space, (p.add item).state.held id space =
      if stored.id = id ∧ stored.space = space then some stored else p.held id space := by
  cases item with
  | file f =>
    obtain ⟨id, found, rfl⟩ := resolve_file_eq_ok_iff.mp resolved
    rw [add, addFile, found]
    refine ⟨rfl, ⟨_, _, _, rfl⟩, fun other space => ?_⟩
    cases space with
    | file =>
      simp only [held, file?, SortedMap.find?_insert, Attachment.id, Attachment.space, and_true]
      by_cases same : other = id
      · simp [same]
      · simp [same, Ne.symm same]
    | subpackage => simp [held, Attachment.space]
    | dependency => simp [held, Attachment.space]
  | package r child =>
    obtain ⟨c, found, rfl⟩ := resolve_package_eq_ok_iff.mp resolved
    have accepted := accept_eq_ok_iff.mpr ⟨found, (p.admits_package_iff r c).mp admits⟩
    rw [add_package, attach, accepted]
    refine ⟨rfl, by cases r <;> exact ⟨_, _, _, rfl⟩, fun other space => ?_⟩
    dsimp only
    by_cases here : (Attachment.package r c).space = space
    · subst here
      rw [held_space_package, children_setChildren, if_pos rfl,
        (p.children r).find?_insert c.id other c trivial, held_space_package]
      by_cases same : other = c.id
      · simp [same, Attachment.id]
      · simp [same, Ne.symm same, Attachment.id]
    · rw [if_neg (fun both => here both.2)]
      cases r <;> cases space <;> simp_all [Attachment.space, held, setChildren, file?]

/-- Otherwise nothing happens. -/
theorem add_of_not_admits {p : Package} {item : Attachment}
    (refused : ∀ stored, p.resolve item = .ok stored → ¬ p.Admits stored) :
    (∃ e, (p.add item).result = .error e) ∧ (p.add item).state = p := by
  cases item with
  | file f =>
    cases found : p.fileId f with
    | error e =>
      rw [add, addFile, found]
      exact ⟨⟨e, rfl⟩, rfl⟩
    | ok id =>
      have resolved := resolve_file_eq_ok_iff.mpr ⟨id, found, rfl⟩
      exact absurd (p.admits_file _) (refused _ resolved)
  | package r child =>
    rw [add_package, attach]
    cases accepted : p.accept child with
    | error e => exact ⟨⟨e, rfl⟩, rfl⟩
    | ok c =>
      obtain ⟨found, free⟩ := accept_eq_ok_iff.mp accepted
      have resolved : p.resolve (.package r child) = .ok (.package r c) :=
        resolve_package_eq_ok_iff.mpr ⟨c, found, rfl⟩
      exact absurd ((p.admits_package_iff r c).mpr free) (refused _ resolved)

theorem add_result_eq_ok_iff {p : Package} {item : Attachment} {id : String} :
    (p.add item).result = .ok id ↔
      ∃ stored, p.resolve item = .ok stored ∧ p.Admits stored ∧ stored.id = id := by
  constructor
  · intro answered
    by_cases accepted : ∃ stored, p.resolve item = .ok stored ∧ p.Admits stored
    · obtain ⟨stored, resolved, admits⟩ := accepted
      rw [(add_of_admits resolved admits).1] at answered
      exact ⟨stored, resolved, admits, Except.ok.inj answered⟩
    · obtain ⟨⟨e, failed⟩, -⟩ := add_of_not_admits fun stored resolved admits =>
        accepted ⟨stored, resolved, admits⟩
      rw [failed] at answered
      cases answered
  · rintro ⟨stored, resolved, admits, rfl⟩
    exact (add_of_admits resolved admits).1

/-- Own data and what is held make up a package. -/
theorem ext_held {p q : Package} (info : p.info = q.info)
    (verification : p.verification = q.verification) (options : p.options = q.options)
    (held : ∀ id space, p.held id space = q.held id space) : p = q := by
  have files : p.files = q.files := SortedMap.ext_find? fun id =>
    Option.map_injective (fun _ _ => Attachment.file.inj) (held id .file)
  have packages : p.packages = q.packages := Children.ext_find? fun id =>
    Option.map_injective (fun _ _ same => (Attachment.package.inj same).2) (held id .subpackage)
  have dependencies : p.dependencies = q.dependencies := Children.ext_find? fun id =>
    Option.map_injective (fun _ _ same => (Attachment.package.inj same).2) (held id .dependency)
  cases p
  cases q
  simp_all

/-- What a ledger takes for a call, if anything. -/
def taken? (p : Package) (ledger : List Attachment) (item : Attachment) : Option Attachment :=
  match p.resolve item with
  | .error _ => none
  | .ok stored =>
    if stored.space = .file ∨ stored.id ∉ ledger.map Attachment.id then some stored else none

/-- The ledger after a call. -/
def enter (p : Package) (ledger : List Attachment) (item : Attachment) : List Attachment :=
  (p.taken? ledger item).toList ++ ledger

/-- The ledger of a sequence of calls on an empty package. -/
def ledger (p : Package) (items : List Attachment) : List Attachment := items.foldl p.enter []

theorem ledger_append (p : Package) (front back : List Attachment) :
    p.ledger (front ++ back) = back.foldl p.enter (p.ledger front) :=
  List.foldl_append ..

/-- The newest entry with an identifier and a use of it. -/
def newest (ledger : List Attachment) (id : String) (space : Namespace) : Option Attachment :=
  ledger.find? fun stored => decide (stored.id = id ∧ stored.space = space)

/-- A package with the own data of `start` that holds what a ledger lists. -/
structure Follows (start : Package) (ledger : List Attachment) (p : Package) : Prop where
  info : p.info = start.info
  verification : p.verification = start.verification
  options : p.options = start.options
  held : ∀ id space, p.held id space = newest ledger id space

variable {start p q : Package} {ledger : List Attachment}

theorem Follows.unique (hp : start.Follows ledger p) (hq : start.Follows ledger q) : p = q :=
  ext_held (hp.info.trans hq.info.symm) (hp.verification.trans hq.verification.symm)
    (hp.options.trans hq.options.symm) fun id space => by rw [hp.held, hq.held]

theorem follows_childless (info : PackageInfo) (verification : Verification) (options : Options) :
    (childless info verification options).Follows [] (childless info verification options) := by
  refine ⟨rfl, rfl, rfl, fun id space => ?_⟩
  cases space <;> rfl

theorem newest_cons (stored : Attachment) (id : String) (space : Namespace) :
    newest (stored :: ledger) id space =
      if stored.id = id ∧ stored.space = space then some stored else newest ledger id space := by
  rw [newest, List.find?_cons]
  by_cases here : stored.id = id ∧ stored.space = space <;> simp [here, newest]

theorem newest_eq_none_iff (id : String) :
    (∀ space, newest ledger id space = none) ↔ id ∉ ledger.map Attachment.id := by
  simp only [newest, List.find?_eq_none, decide_eq_true_eq, List.mem_map, not_exists, not_and]
  constructor
  · intro absent stored member same
    exact absent stored.space stored member same rfl
  · intro absent space stored member same
    exact absurd same (absent stored member)

theorem Follows.containsId_eq_false_iff (h : start.Follows ledger p) (id : String) :
    p.containsId id = false ↔ id ∉ ledger.map Attachment.id := by
  rw [Package.containsId_eq_false_iff, ← newest_eq_none_iff]
  simp only [h.held]

theorem taken?_eq_some_iff {item stored : Attachment} :
    start.taken? ledger item = some stored ↔ start.resolve item = .ok stored ∧
      (stored.space = .file ∨ stored.id ∉ ledger.map Attachment.id) := by
  rw [taken?]
  cases start.resolve item with
  | error e => simp
  | ok resolved =>
    dsimp only
    split
    next admitted =>
      rw [Option.some.injEq, Except.ok.injEq]
      constructor
      · rintro rfl
        exact ⟨rfl, admitted⟩
      · exact And.left
    next refused =>
      constructor
      · intro h
        cases h
      · rintro ⟨same, admitted⟩
        cases same
        exact absurd admitted refused

/-- The ledger takes what the package admits. -/
theorem Follows.taken?_eq_some_iff (h : start.Follows ledger p) {item stored : Attachment} :
    start.taken? ledger item = some stored ↔ p.resolve item = .ok stored ∧ p.Admits stored := by
  rw [Package.taken?_eq_some_iff, Admits, h.containsId_eq_false_iff, resolve_congr h.info]

/-- A call succeeds if the ledger takes it, and is answered with what it is listed under. -/
theorem Follows.result_eq_ok_iff (h : start.Follows ledger p) {item : Attachment} {id : String} :
    (p.add item).result = .ok id ↔
      ∃ stored, start.taken? ledger item = some stored ∧ stored.id = id := by
  rw [add_result_eq_ok_iff]
  exact exists_congr fun stored => by rw [h.taken?_eq_some_iff, and_assoc]

/-- One call: the package answers as its ledger takes, and follows it further. -/
theorem Follows.add (h : start.Follows ledger p) (item : Attachment) :
    (p.add item).result.toOption = (start.taken? ledger item).map Attachment.id ∧
      start.Follows (start.enter ledger item) (p.add item).state := by
  rw [enter]
  cases taken : start.taken? ledger item with
  | some stored =>
    obtain ⟨resolved, admits⟩ := h.taken?_eq_some_iff.mp taken
    obtain ⟨result, ⟨_, _, _, state⟩, held⟩ := add_of_admits resolved admits
    rw [result]
    refine ⟨rfl, ?_, ?_, ?_, fun id space => ?_⟩
    · rw [state, h.info]
    · rw [state, h.verification]
    · rw [state, h.options]
    · rw [held, h.held, Option.toList_some, List.singleton_append, newest_cons]
  | none =>
    obtain ⟨⟨e, failed⟩, same⟩ := add_of_not_admits fun stored resolved admits => by
      rw [h.taken?_eq_some_iff.mpr ⟨resolved, admits⟩] at taken
      cases taken
    rw [failed, same]
    exact ⟨rfl, h⟩

theorem Follows.addAll (h : start.Follows ledger p) (items : List Attachment) :
    start.Follows (items.foldl start.enter ledger) (p.addAll items) := by
  induction items generalizing p ledger with
  | nil => exact h
  | cons item items ih => exact ih (h.add item).2

/-- A ledger that is entered again, oldest first, is the same ledger. -/
theorem ledger_reverse_ledger (items : List Attachment) :
    start.ledger (start.ledger items).reverse = start.ledger items := by
  have step (ledger : List Attachment) (item : Attachment)
      (again : start.ledger ledger.reverse = ledger) :
      start.ledger (start.enter ledger item).reverse = start.enter ledger item := by
    rw [enter]
    cases taken : start.taken? ledger item with
    | none => exact again
    | some stored =>
      obtain ⟨resolved, admitted⟩ := Package.taken?_eq_some_iff.mp taken
      have same : start.taken? ledger stored = some stored :=
        Package.taken?_eq_some_iff.mpr ⟨resolve_of_resolve resolved, admitted⟩
      rw [Package.ledger] at again ⊢
      rw [Option.toList_some, List.singleton_append, List.reverse_cons, List.foldl_append, again]
      simp [enter, same]
  suffices ∀ ledger, start.ledger ledger.reverse = ledger →
      start.ledger (items.foldl start.enter ledger).reverse = items.foldl start.enter ledger from
    this [] rfl
  induction items with
  | nil => exact fun ledger again => again
  | cons item items ih => exact fun ledger again => ih _ (step ledger item again)

/-- A package is listed only if nothing of its identifier was before. -/
def Listing (ledger : List Attachment) : Prop :=
  ledger.Pairwise fun newer older => newer.space = .file ∨ newer.id ≠ older.id

theorem listing_ledger (items : List Attachment) : Listing (start.ledger items) := by
  have step {ledger : List Attachment} (listing : Listing ledger) (item : Attachment) :
      Listing (start.enter ledger item) := by
    rw [enter]
    cases taken : start.taken? ledger item with
    | none => exact listing
    | some stored =>
      obtain ⟨-, admitted⟩ := Package.taken?_eq_some_iff.mp taken
      refine List.pairwise_cons.mpr ⟨fun older member => ?_, listing⟩
      exact admitted.imp_right fun fresh same => fresh (List.mem_map.mpr ⟨older, member, same.symm⟩)
  suffices ∀ ledger, Listing ledger → Listing (items.foldl start.enter ledger) from
    this [] List.Pairwise.nil
  induction items with
  | nil => exact fun ledger listing => listing
  | cons item items ih => exact fun ledger listing => ih _ (step listing item)

/-- A listed package is the only entry of its identifier and kind. -/
theorem Listing.newest_of_package (listing : Listing ledger) {stored : Attachment}
    (member : stored ∈ ledger) (package : stored.space ≠ .file) :
    newest ledger stored.id stored.space = some stored := by
  induction ledger with
  | nil => cases member
  | cons newer older ih =>
    obtain ⟨above, below⟩ := List.pairwise_cons.mp listing
    rw [newest_cons]
    rcases List.mem_cons.mp member with rfl | member
    · rw [if_pos ⟨rfl, rfl⟩]
    · rw [if_neg, ih below member]
      rintro ⟨same, kind⟩
      rcases above stored member with file | apart
      · exact package (kind ▸ file)
      · exact apart same

theorem mem_of_newest {id : String} {space : Namespace} {stored : Attachment}
    (found : newest ledger id space = some stored) :
    stored ∈ ledger ∧ stored.id = id ∧ stored.space = space :=
  ⟨List.mem_of_find?_eq_some found, by simpa using List.find?_some found⟩

theorem mem_enter_iff {item stored : Attachment} :
    stored ∈ start.enter ledger item ↔
      start.taken? ledger item = some stored ∨ stored ∈ ledger := by
  rw [enter, List.mem_append, Option.mem_toList]

/-- What a ledger lists was listed before or taken for one of the calls. -/
theorem mem_foldl_enter_iff {items : List Attachment} {stored : Attachment}
    (ledger : List Attachment) :
    stored ∈ items.foldl start.enter ledger ↔ stored ∈ ledger ∨
      ∃ front item back, items = front ++ item :: back ∧
        start.taken? (front.foldl start.enter ledger) item = some stored := by
  induction items generalizing ledger with
  | nil => simp
  | cons first rest ih =>
    rw [List.foldl_cons, ih, mem_enter_iff]
    constructor
    · rintro ((taken | listed) | ⟨front, item, back, rfl, taken⟩)
      · exact .inr ⟨[], first, rest, rfl, taken⟩
      · exact .inl listed
      · exact .inr ⟨first :: front, item, back, rfl, taken⟩
    · rintro (listed | ⟨_ | ⟨head, front⟩, item, back, split, taken⟩)
      · exact .inl (.inr listed)
      · cases split
        exact .inl (.inl taken)
      · cases split
        exact .inr ⟨front, item, back, rfl, taken⟩

theorem mem_foldl_enter {stored : Attachment} (member : stored ∈ ledger)
    (items : List Attachment) : stored ∈ items.foldl start.enter ledger :=
  (mem_foldl_enter_iff ledger).mpr (.inl member)

theorem mem_ledger_iff {items : List Attachment} {stored : Attachment} :
    stored ∈ start.ledger items ↔ ∃ front item back, items = front ++ item :: back ∧
      start.taken? (start.ledger front) item = some stored := by
  rw [ledger, mem_foldl_enter_iff, or_iff_right List.not_mem_nil]
  rfl

/-- All that a package lists: its files, its sub-packages and its dependencies. -/
def contents (p : Package) : List Attachment :=
  p.files.values.map .file
    ++ ((p.children .contains).toList.map Prod.snd).map (.package .contains)
    ++ ((p.children .dependsOn).toList.map Prod.snd).map (.package .dependsOn)

theorem Keyed.mem_contents_iff (keyed : p.Keyed) (stored : Attachment) :
    stored ∈ p.contents ↔ p.held stored.id stored.space = some stored := by
  cases stored with
  | file f =>
    have kept : f ∈ p.files.values ↔ p.file? f.id = some f :=
      mem_values_iff_lookup p.files.ascending keyed.files
    simpa [contents, held, Attachment.id, Attachment.space] using kept
  | package r c =>
    have kept : c ∈ (p.children r).toList.map Prod.snd ↔ (p.children r).find? c.id = some c :=
      mem_values_iff_lookup (p.children r).ascending (keyed.children r)
    rw [held_space_package]
    cases r <;> simpa [contents, Attachment.id] using kept

/-- What calls on the empty package `start` come to, all told from their ledger. -/
structure RefinesLedger (start : Package) (items : List Attachment) : Prop where
  /-- An identifier that is given is the one that is used; one that is missing is made from names. -/
  given : ∀ item : Attachment, item.id ≠ "" → start.resolve item = .ok item
  made_file : ∀ f : File, f.id = "" → start.resolve (.file f) =
    (Identifier.ofFile start.name f.name).map fun id => .file { f with id }
  made_package : ∀ (r : Relationship) (child : Package), child.id = "" →
    start.resolve (.package r child) =
      (Identifier.ofPackage child.name).map fun id => .package r (child.withId id)
  /-- A call is answered as the ledger takes it. It succeeds exactly if its identifier resolves and,
  for a package, nothing has that identifier when the call is made. -/
  answered : ∀ front item back, items = front ++ item :: back →
    ((start.addAll front).add item).result.toOption =
      (start.taken? (start.ledger front) item).map Attachment.id ∧
    ∀ id, ((start.addAll front).add item).result = .ok id ↔
      ∃ stored, start.resolve item = .ok stored ∧ stored.id = id ∧
        (item.space = .file ∨ (start.addAll front).containsId id = false)
  /-- The calls that the ledger took lead to the same package. -/
  replayed : start.addAll (start.ledger items).reverse = start.addAll items
  /-- Held is the newest entry of each identifier and kind, and nothing else. -/
  held : ∀ id space, (start.addAll items).held id space = newest (start.ledger items) id space
  /-- What a call was answered with leads to something until the end, and to the package itself if
  one was attached. -/
  retrievable : ∀ front item back id, items = front ++ item :: back →
    ((start.addAll front).add item).result = .ok id →
      ∃ stored, (start.addAll items).held id item.space = some stored ∧
        (item.space = .file ∨ start.resolve item = .ok stored)
  filed : (start.addAll items).Filed
  apart : (start.addAll items).PackagesApart
  ascending_files : (start.addAll items).fileIds.Pairwise (· < ·)
  ascending_children : ∀ r, ((start.addAll items).childIds r).Pairwise (· < ·)
  listed : ∀ stored, stored ∈ (start.addAll items).contents ↔
    (start.addAll items).held stored.id stored.space = some stored

/-- The package store refines its ledger: files by the last write, packages by the first. -/
theorem store_refines_ledger (info : PackageInfo) (verification : Verification)
    (options : Options) (items : List Attachment) :
    (childless info verification options).RefinesLedger items := by
  have empty := follows_childless info verification options
  generalize start_eq : childless info verification options = start at empty ⊢
  have filed : (start.addAll items).Filed :=
    Filed.addAll (start_eq ▸ filed_childless info verification options) items
  have follows : start.Follows (start.ledger items) (start.addAll items) := empty.addAll items
  refine ⟨fun _ => start.resolve_of_id_ne_empty, fun _ => start.resolve_file_of_id_eq_empty,
    fun r _ => start.resolve_package_of_id_eq_empty r, ?answered, ?replayed, follows.held,
    ?retrievable, filed, ?apart, filed.fileIds_ascending, filed.childIds_ascending,
    filed.mem_contents_iff⟩
  case answered =>
    rintro front item back -
    have now : start.Follows (start.ledger front) (start.addAll front) := empty.addAll front
    refine ⟨(now.add item).1, fun id => ?_⟩
    rw [add_result_eq_ok_iff, resolve_congr now.info]
    refine exists_congr fun stored => and_congr_right fun resolved => ?_
    rw [Admits, space_of_resolve resolved, and_comm]
    exact and_congr_right fun same => by rw [same]
  case replayed =>
    have again : start.Follows (start.ledger (start.ledger items).reverse)
        (start.addAll (start.ledger items).reverse) := empty.addAll _
    rw [ledger_reverse_ledger] at again
    exact again.unique follows
  case retrievable =>
    rintro front item back id rfl answered
    have now : start.Follows (start.ledger front) (start.addAll front) := empty.addAll front
    obtain ⟨stored, resolved, admits, rfl⟩ := add_result_eq_ok_iff.mp answered
    have member : stored ∈ start.ledger (front ++ item :: back) := by
      rw [ledger_append, List.foldl_cons]
      apply mem_foldl_enter
      rw [enter, now.taken?_eq_some_iff.mpr ⟨resolved, admits⟩]
      exact List.mem_cons_self ..
    rw [follows.held, ← space_of_resolve resolved]
    by_cases file : stored.space = .file
    · cases found : newest (start.ledger (front ++ item :: back)) stored.id stored.space with
      | some newer => exact ⟨newer, rfl, .inl file⟩
      | none =>
        have absent := List.find?_eq_none.mp found stored member
        simp at absent
    · refine ⟨stored, (listing_ledger _).newest_of_package member file, .inr ?_⟩
      rwa [← resolve_congr now.info]
  case apart =>
    apply PackagesApart.addAll (start_eq ▸ keyed_childless info verification options)
    intro id member
    rw [← start_eq] at member
    cases member

end Package
end BillOfMaterials
