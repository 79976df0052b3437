import BillOfMaterials.Proofs.Store.Attachment

/-!
# Identifiers across relationships

A package is attached only under an identifier that nothing of its owner has, so no identifier is
that of a sub-package and of a dependency. A file is attached under any identifier: it can take that
of a package stored before, and this is the only way in which two children of one package come to
share an identifier.
-/
namespace BillOfMaterials.Package

/-- No file shares its identifier with a package of the same owner. -/
def FilesApart (p : Package) : Prop := ∀ r, ∀ id ∈ p.fileIds, id ∉ p.childIds r

/-- No sub-package shares its identifier with a dependency of the same owner. -/
def PackagesApart (p : Package) : Prop :=
  ∀ id ∈ p.childIds .contains, id ∉ p.childIds .dependsOn

/-- Attaching the file would give it the identifier of a stored package. -/
def TakesPackageId (p : Package) (f : File) : Prop :=
  ∃ id r, p.fileId f = .ok id ∧ id ∈ p.childIds r

theorem childIds_setFiles (p : Package) (files : SortedMap File) (r : Relationship) :
    { p with files }.childIds r = p.childIds r := by
  cases r <;> rfl

theorem fileIds_setChildren (p : Package) (r : Relationship) (c : Children none) :
    (p.setChildren r c).fileIds = p.fileIds := by
  rw [fileIds, files_setChildren, fileIds]

theorem Keyed.mem_fileIds_insert {p : Package} (keyed : p.Keyed) {f : File} {id : String}
    (resolved : p.fileId f = .ok id) (other : String) :
    other ∈ { p with files := p.files.insert id { f with id } }.fileIds ↔
      other = id ∨ other ∈ p.fileIds := by
  have kept : { p with files := p.files.insert id { f with id } }.Keyed := by
    have step := keyed.add (.file f)
    rwa [Package.add, addFile, resolved] at step
  rw [kept.fileIds_eq, keyed.fileIds_eq]
  exact mem_keys_insertEntry_iff

theorem Keyed.mem_childIds_insert {p : Package} (keyed : p.Keyed) {child stored : Package}
    {r : Relationship} (accepted : p.accept child = .ok stored) (r' : Relationship)
    (other : String) :
    other ∈ (p.setChildren r ((p.children r).insert stored.id stored trivial)).childIds r' ↔
      (r' = r ∧ other = stored.id) ∨ other ∈ p.childIds r' := by
  have kept : (p.setChildren r ((p.children r).insert stored.id stored trivial)).Keyed := by
    have step := keyed.add (.package r child)
    rwa [add_package, attach, accepted] at step
  rw [kept.childIds_eq, keyed.childIds_eq, children_setChildren]
  by_cases same : r' = r
  · subst same
    rw [if_pos rfl, (p.children r').toList_insert stored.id stored trivial,
      mem_keys_insertEntry_iff]
    simp
  · rw [if_neg same]
    simp [same]

/-- An accepted package has an identifier that is new to its owner. -/
theorem Keyed.free_of_accept {p : Package} (keyed : p.Keyed) {child stored : Package}
    (accepted : p.accept child = .ok stored) :
    stored.id ∉ p.fileIds ∧ ∀ r, stored.id ∉ p.childIds r := by
  have free := namespaceOf_eq_none_iff.mp (accept_eq_ok_iff.mp accepted).2
  rw [keyed.fileIds_eq]
  refine ⟨free.1, fun r => ?_⟩
  rw [keyed.childIds_eq]
  exact free.2 r

theorem PackagesApart.add {p : Package} (keyed : p.Keyed) (apart : p.PackagesApart)
    (item : Attachment) : (p.add item).state.PackagesApart := by
  have step := p.added item
  generalize p.add item = outcome at step ⊢
  cases step with
  | refused e => exact apart
  | @file f id events resolved =>
    intro other
    rw [childIds_setFiles, childIds_setFiles]
    exact apart other
  | @package r child stored events accepted =>
    intro other
    rw [keyed.mem_childIds_insert accepted, keyed.mem_childIds_insert accepted]
    have free := (keyed.free_of_accept accepted).2
    rintro (⟨rfl, rfl⟩ | old) (⟨same, new⟩ | old')
    · cases same
    · exact free _ old'
    · exact free _ (new ▸ old)
    · exact apart other old old'

/-- Files stay apart from packages exactly until a file takes the identifier of one. -/
theorem filesApart_add_iff {p : Package} (keyed : p.Keyed) (item : Attachment) :
    (p.add item).state.FilesApart ↔
      p.FilesApart ∧ ∀ f, item = .file f → ¬ p.TakesPackageId f := by
  have step := p.added item
  generalize outcome_eq : p.add item = outcome at step ⊢
  cases step with
  | refused e =>
    constructor
    · intro apart
      refine ⟨apart, ?_⟩
      rintro f rfl ⟨id, r, resolved, -⟩
      rw [Package.add, addFile, resolved] at outcome_eq
      cases outcome_eq
    · intro h
      exact h.1
  | @file f id events resolved =>
    have unchanged (r : Relationship) := p.childIds_setFiles (p.files.insert id { f with id }) r
    constructor
    · intro apart
      constructor
      · intro r other member
        rw [← unchanged]
        exact apart r other ((keyed.mem_fileIds_insert resolved other).mpr (.inr member))
      · rintro _ ⟨⟩ ⟨id', r, resolved', taken⟩
        rw [resolved] at resolved'
        cases resolved'
        rw [← unchanged] at taken
        exact apart r id ((keyed.mem_fileIds_insert resolved id).mpr (.inl rfl)) taken
    · rintro ⟨apart, free⟩ r other member
      rw [unchanged]
      rcases (keyed.mem_fileIds_insert resolved other).mp member with rfl | old
      · intro taken
        exact free f rfl ⟨other, r, resolved, taken⟩
      · exact apart r other old
  | @package r child stored events accepted =>
    have free := (keyed.free_of_accept accepted).1
    constructor
    · intro apart
      refine ⟨fun r' other member => ?_, fun f => by rintro ⟨⟩⟩
      have absent := apart r' other (by rwa [fileIds_setChildren])
      rw [keyed.mem_childIds_insert accepted, not_or] at absent
      exact absent.2
    · rintro ⟨apart, -⟩ r' other member
      rw [fileIds_setChildren] at member
      rw [keyed.mem_childIds_insert accepted, not_or]
      refine ⟨?_, apart r' other member⟩
      rintro ⟨-, rfl⟩
      exact free member

/-- No file of the sequence takes the identifier of a package that is stored when its turn comes. -/
def NoneTakesPackageId (p : Package) (items : List Attachment) : Prop :=
  ∀ front f back, items = front ++ .file f :: back → ¬ (p.addAll front).TakesPackageId f

theorem noneTakesPackageId_cons_iff (p : Package) (item : Attachment) (items : List Attachment) :
    p.NoneTakesPackageId (item :: items) ↔
      (∀ f, item = .file f → ¬ p.TakesPackageId f) ∧
        (p.add item).state.NoneTakesPackageId items := by
  constructor
  · intro h
    constructor
    · rintro f rfl
      exact h [] f items rfl
    · rintro front f back rfl
      exact h (item :: front) f back rfl
  · rintro ⟨first, rest⟩ front f back split
    cases front with
    | nil =>
      cases split
      exact first f rfl
    | cons head front =>
      cases split
      exact rest front f back rfl

theorem filesApart_addAll_iff {p : Package} (keyed : p.Keyed) (items : List Attachment) :
    (p.addAll items).FilesApart ↔ p.FilesApart ∧ p.NoneTakesPackageId items := by
  induction items generalizing p with
  | nil => simp [addAll, NoneTakesPackageId]
  | cons item items ih =>
    rw [addAll_cons, ih (keyed.add item), filesApart_add_iff keyed, noneTakesPackageId_cons_iff,
      and_assoc]

theorem PackagesApart.addAll {p : Package} (keyed : p.Keyed) (apart : p.PackagesApart)
    (items : List Attachment) : (p.addAll items).PackagesApart := by
  induction items generalizing p with
  | nil => exact apart
  | cons item items ih => exact ih (keyed.add item) (apart.add keyed item)

/-- Whatever is attached to an empty package, in whatever order, its sub-packages and dependencies
never share an identifier, and its files share none with them exactly if no file took the
identifier of a package stored before it. -/
theorem ids_apart_iff_no_file_takes_package_id (info : PackageInfo) (verification : Verification)
    (options : Options) (items : List Attachment) :
    ((childless info verification options).addAll items).PackagesApart ∧
      (((childless info verification options).addAll items).FilesApart ↔
        (childless info verification options).NoneTakesPackageId items) := by
  have keyed := keyed_childless info verification options
  constructor
  · apply PackagesApart.addAll keyed
    intro id member
    cases member
  · rw [filesApart_addAll_iff keyed]
    constructor
    · intro h
      exact h.2
    · intro h
      refine ⟨fun r id member => ?_, h⟩
      cases member

/-- A file explicitly identified as `Package-zlib` joins a sub-package of that identifier. -/
theorem file_takes_package_id :
    ¬ ∀ (info : PackageInfo) (items : List Attachment),
      ((childless info {} {}).addAll items).FilesApart := by
  intro apart
  have shared := apart {} [.package .contains (named "zlib"), .file { id := "Package-zlib" }]
    .contains "Package-zlib"
  exact shared (by decide) (by decide)

end BillOfMaterials.Package
