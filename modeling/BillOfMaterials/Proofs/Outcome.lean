import BillOfMaterials.Error

/-!
# Results in sequence

How a result that is put together from several others came about: a success from the success of
each, a failure from the first that failed.
-/
namespace BillOfMaterials

variable {ε ε' α β σ : Type}

theorem bind_eq_ok {x : Except ε α} {next : α → Except ε β} {b : β} :
    (x >>= next) = .ok b ↔ ∃ a, x = .ok a ∧ next a = .ok b := by
  cases x with
  | error e =>
    constructor
    · intro h
      cases h
    · rintro ⟨a, h, -⟩
      cases h
  | ok a =>
    constructor
    · intro h
      exact ⟨a, rfl, h⟩
    · rintro ⟨a', h, after⟩
      cases h
      exact after

theorem bind_eq_error {x : Except ε α} {next : α → Except ε β} {e : ε} :
    (x >>= next) = .error e ↔ x = .error e ∨ ∃ a, x = .ok a ∧ next a = .error e := by
  cases x with
  | error e' =>
    constructor
    · intro h
      cases h
      exact .inl rfl
    · rintro (h | ⟨a, h, -⟩)
      · cases h
        rfl
      · cases h
  | ok a =>
    constructor
    · intro h
      exact .inr ⟨a, rfl, h⟩
    · rintro (h | ⟨a', h, after⟩)
      · cases h
      · cases h
        exact after

theorem mapError_eq_ok {x : Except ε α} {wrap : ε → ε'} {a : α} :
    x.mapError wrap = .ok a ↔ x = .ok a := by
  cases x with
  | error e => constructor <;> intro h <;> cases h
  | ok b => constructor <;> intro h <;> cases h <;> rfl

theorem mapM_eq_ok_iff {f : α → Except ε β} {l : List α} {r : List β} :
    l.mapM f = .ok r ↔ l.map f = r.map .ok := by
  induction l generalizing r with
  | nil =>
    rw [List.mapM_nil, List.map_nil]
    constructor
    · intro h
      cases h
      rfl
    · intro h
      rw [List.map_eq_nil_iff.mp h.symm]
      rfl
  | cons a rest ih =>
    rw [List.mapM_cons, List.map_cons, bind_eq_ok]
    constructor
    · rintro ⟨b, first, h⟩
      obtain ⟨others, later, h⟩ := bind_eq_ok.mp h
      cases h
      rw [first, ih.mp later]
      rfl
    · intro h
      cases r with
      | nil => cases h
      | cons b others =>
        rw [List.map_cons, List.cons.injEq] at h
        exact ⟨b, h.1, bind_eq_ok.mpr ⟨others, ih.mpr h.2, rfl⟩⟩

/-- The first failure of a list decides its error. -/
theorem mapM_eq_error_iff {f : α → Except ε β} {l : List α} {e : ε} :
    l.mapM f = .error e ↔ ∃ front a back, l = front ++ a :: back ∧
      (∀ a' ∈ front, ∃ b, f a' = .ok b) ∧ f a = .error e := by
  induction l with
  | nil =>
    constructor
    · intro h
      cases h
    · rintro ⟨front, a, back, split, -⟩
      cases front <;> cases split
  | cons first rest ih =>
    rw [List.mapM_cons, bind_eq_error]
    constructor
    · rintro (failed | ⟨b, passed, h⟩)
      · exact ⟨[], first, rest, rfl, by simp, failed⟩
      · rcases bind_eq_error.mp h with later | ⟨others, -, h⟩
        · obtain ⟨front, a, back, split, before, failed⟩ := ih.mp later
          refine ⟨first :: front, a, back, by rw [split]; rfl, ?_, failed⟩
          intro a' member
          cases member with
          | head => exact ⟨b, passed⟩
          | tail _ member => exact before a' member
        · cases h
    · rintro ⟨front, a, back, split, before, failed⟩
      cases front with
      | nil =>
        cases split
        exact .inl failed
      | cons head front =>
        cases split
        obtain ⟨b, passed⟩ := before first (List.mem_cons_self ..)
        refine .inr ⟨b, passed, bind_eq_error.mpr (.inl (ih.mpr ?_))⟩
        exact ⟨front, a, back, rfl, fun a' member => before a' (List.mem_cons_of_mem _ member),
          failed⟩

namespace Outcome

def error? (o : Outcome σ α) : Option Error :=
  match o.result with
  | .error e => some e
  | .ok _ => none

theorem error?_eq_some_iff {o : Outcome σ α} {e : Error} :
    o.error? = some e ↔ o.result = .error e := by
  rw [error?]
  cases o.result <;> simp

theorem error?_eq_none_iff {o : Outcome σ α} : o.error? = none ↔ ∃ a, o.result = .ok a := by
  rw [error?]
  cases o.result <;> simp

end Outcome
end BillOfMaterials
