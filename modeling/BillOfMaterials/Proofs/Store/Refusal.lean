import BillOfMaterials.Proofs.Store.Ledger

/-!
# What becomes of a refused package

A package is refused because nothing in its name can identify it, or because its owner uses its
identifier already, under whichever relationship it was to be attached. The owner stays as it is. A
package whose identifier is taken comes back whole, and can be attached under another one.
-/
namespace BillOfMaterials

/-- The order in which uses of an identifier are looked at. -/
def Namespace.all : List Namespace := [.file, .subpackage, .dependency]

namespace Package

/-- The identifier that the package is attached under: its own, or else one made of its name. -/
def ResolvesTo (child : Package) (id : String) : Prop :=
  (child.id ≠ "" ∧ id = child.id) ∨
    (child.id = "" ∧ Identifier.token child.name ≠ "" ∧
      id = "Package-" ++ Identifier.token child.name)

/-- The package has no identifier, and no character of its name can stand in one. -/
def Nameless (child : Package) : Prop :=
  child.id = "" ∧ ∀ c ∈ child.name.toList, ¬ (c.isAlphanum ∨ c = '.' ∨ c = '-')

/-- The use is the first that the package has for the identifier. -/
def FirstUse (p : Package) (id : String) (takenAs : Namespace) : Prop :=
  p.held id takenAs ≠ none ∧ ∃ front back, Namespace.all = front ++ takenAs :: back ∧
    ∀ space ∈ front, p.held id space = none

/-- Why a package is not attached. What is handed back has its identifier filled in. -/
inductive Refuses (p child : Package) : Error → Prop
  | nameless (nameless : child.Nameless) : Refuses p child (.missingInput .usableName)
  | taken {id : String} {takenAs : Namespace} (resolved : child.ResolvesTo id)
      (first : p.FirstUse id takenAs) :
      Refuses p child (.conflict id takenAs (some (child.withId id)))

variable {p child stored : Package} {id : String} {r : Relationship} {e : Error}

theorem token_eq_empty_iff {name : String} : Identifier.token name = "" ↔
    ∀ c ∈ name.toList, ¬ (c.isAlphanum ∨ c = '.' ∨ c = '-') := by
  rw [Identifier.token, ← String.toList_inj, String.toList_ofList, String.toList_empty,
    List.filter_eq_nil_iff]
  simp [Identifier.isAllowed, or_assoc]

theorem resolvesTo_of_named (named : child.id ≠ "") : child.ResolvesTo id ↔ id = child.id := by
  simp [ResolvesTo, named]

theorem identified_of_named (named : child.id ≠ "") : child.identified = .ok child := by
  simp [identified, named]

@[simp] theorem id_withId (p : Package) (id : String) : (p.withId id).id = id := rfl

theorem withId_id (p : Package) : p.withId p.id = p := by
  cases p
  rfl

theorem identified_eq_ok_iff :
    child.identified = .ok stored ↔ ∃ id, child.ResolvesTo id ∧ child.withId id = stored := by
  by_cases named : child.id = ""
  · by_cases blank : Identifier.token child.name = ""
    · simp [identified, ResolvesTo, Identifier.ofPackage, Except.map, named, blank]
    · simp [identified, ResolvesTo, Identifier.ofPackage, Except.map, named, blank]
  · simp [identified_of_named named, resolvesTo_of_named named, withId_id]

theorem identified_eq_error_iff :
    child.identified = .error e ↔ child.Nameless ∧ e = .missingInput .usableName := by
  rw [Nameless, ← token_eq_empty_iff]
  by_cases named : child.id = ""
  · by_cases blank : Identifier.token child.name = ""
    · simp [identified, Identifier.ofPackage, Except.map, named, blank, @eq_comm _ e]
    · simp [identified, Identifier.ofPackage, Except.map, named, blank]
  · simp [identified_of_named named, named]

theorem ResolvesTo.ne_empty (resolved : child.ResolvesTo id) : id ≠ "" :=
  id_ne_empty_of_identified (identified_eq_ok_iff.mpr ⟨id, resolved, rfl⟩)

theorem namespaceOf_eq_find? (p : Package) (id : String) :
    p.namespaceOf id = Namespace.all.find? fun space => (p.held id space).isSome := by
  have files : p.files.contains id = (p.held id .file).isSome := Option.isSome_map.symm
  have packages : p.packages.contains id = (p.held id .subpackage).isSome := Option.isSome_map.symm
  have dependencies : p.dependencies.contains id = (p.held id .dependency).isSome :=
    Option.isSome_map.symm
  rw [namespaceOf, files, packages, dependencies]
  simp only [Namespace.all, List.find?_cons, List.find?_nil]
  cases (p.held id .file).isSome <;> cases (p.held id .subpackage).isSome <;>
    cases (p.held id .dependency).isSome <;> rfl

theorem namespaceOf_eq_some_iff {takenAs : Namespace} :
    p.namespaceOf id = some takenAs ↔ p.FirstUse id takenAs := by
  simp [namespaceOf_eq_find?, List.find?_eq_some_iff_append, FirstUse, Option.isSome_iff_ne_none]

theorem accept_eq_error_iff : p.accept child = .error e ↔ p.Refuses child e := by
  rw [accept]
  constructor
  · intro refused
    cases resolved : child.identified with
    | error e' =>
      obtain ⟨nameless, rfl⟩ := identified_eq_error_iff.mp resolved
      rw [resolved] at refused
      cases refused
      exact .nameless nameless
    | ok stored =>
      obtain ⟨id, resolves, rfl⟩ := identified_eq_ok_iff.mp resolved
      rw [resolved] at refused
      dsimp only at refused
      cases taken : p.namespaceOf (child.withId id).id with
      | none =>
        rw [taken] at refused
        cases refused
      | some takenAs =>
        rw [taken] at refused
        cases refused
        exact .taken resolves (namespaceOf_eq_some_iff.mp taken)
  · rintro (nameless | ⟨resolves, first⟩)
    · rw [identified_eq_error_iff.mpr ⟨nameless, rfl⟩]
    · rw [identified_eq_ok_iff.mpr ⟨_, resolves, rfl⟩]
      simp only [id_withId, namespaceOf_eq_some_iff.mpr first]

theorem attach_result (p : Package) (r : Relationship) (child : Package) :
    (p.attach r child).result = (p.accept child).map Package.id := by
  rw [attach]
  cases p.accept child <;> rfl

theorem attach_result_eq_error_iff :
    (p.attach r child).result = .error e ↔ p.Refuses child e := by
  rw [attach_result, ← accept_eq_error_iff]
  cases p.accept child <;> simp [Except.map]

/-- What is handed back differs in a missing identifier only, and meets the same refusal. -/
theorem Refuses.again {again : Package} (refuses : p.Refuses child e)
    (back : e.refused? = some again) :
    again.id ≠ "" ∧ (∃ id, again = child.withId id) ∧ (child.id ≠ "" → again = child) ∧
      p.Refuses again e := by
  cases refuses with
  | nameless nameless => cases back
  | @taken id takenAs resolved first =>
    cases back
    have named : (child.withId id).id ≠ "" := resolved.ne_empty
    refine ⟨named, ⟨id, rfl⟩, fun own => ?_, ?_⟩
    · rw [(resolvesTo_of_named own).mp resolved, withId_id]
    · exact .taken ((resolvesTo_of_named named).mpr rfl) first

end Package
end BillOfMaterials
