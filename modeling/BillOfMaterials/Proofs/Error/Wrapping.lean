import BillOfMaterials.Failure
import Mathlib.Data.List.Infix
import Mathlib.Data.List.Induction

/-!
# Errors within contexts

Wrapping an error says more about where it happened and nothing else about what happened: the cause
at the root stays, every error on the way to it stays in the chain, and a caller of the whole toolkit
is told the class of the root cause with the text of all contexts.
-/
namespace BillOfMaterials

namespace Error

/-- What can lie directly below an error. -/
inductive Cause where
  | error (e : Error)
  | access (cause : AccessError)
  | format

def Cause.text : Cause → String
  | .error e => e.message
  | .access cause => cause.message
  | .format => formatText

/-- What lies below an error, from the outside in. -/
def chain : Error → List Cause
  | .access _ cause => [.access cause]
  | .format => [.format]
  | .within _ cause => .error cause :: cause.chain
  | _ => []

/-- `Classed root failure`: where `root` is the cause of all, a caller is told `failure`. No wrapped
error is the cause of all. -/
inductive Classed : Error → (String → DocumentFailure) → Prop
  | missingInput {what : MissingInput} : Classed (.missingInput what) .missingInput
  | conflict {id : String} {takenAs : Namespace} {refused : Option Package} :
      Classed (.conflict id takenAs refused) .conflict
  | incompleteData {what : IncompleteData} : Classed (.incompleteData what) .incompleteData
  | missingChecksum {file algorithm : String} :
      Classed (.missingChecksum file algorithm) .incompleteData
  | access {path : String} {cause : AccessError} : Classed (.access path cause) .renderFailed
  | format : Classed .format .renderFailed

end Error

/-- What a caller is told of a root cause of this kind. -/
def ErrorKind.failure : ErrorKind → String → DocumentFailure
  | .missingInput => .missingInput
  | .conflict => .conflict
  | .incompleteData => .incompleteData
  | .underlying => .renderFailed

namespace Error

variable (e : Error) (inner outer contexts : List String) (context : String)

theorem withinAll_append :
    e.withinAll (inner ++ outer) = (e.withinAll inner).withinAll outer := by
  rw [withinAll, List.foldl_append]
  rfl

theorem withinAll_concat :
    e.withinAll (contexts ++ [context]) = .within context (e.withinAll contexts) := by
  rw [withinAll_append]
  rfl

theorem rootCause_withinAll : (e.withinAll contexts).rootCause = e.rootCause := by
  induction contexts generalizing e with
  | nil => rfl
  | cons context rest ih => exact ih (.within context e)

theorem kind_withinAll :
    (e.withinAll contexts).kind = if contexts = [] then e.kind else .underlying := by
  induction contexts using List.reverseRecOn with
  | nil => rfl
  | append_singleton contexts context _ => simp [withinAll_concat, kind]

/-- The last context comes first in the text. -/
theorem message_withinAll :
    (e.withinAll contexts).message = ": ".intercalate (contexts.reverse ++ [e.message]) := by
  induction contexts using List.reverseRecOn with
  | nil => simp [withinAll]
  | append_singleton contexts context ih =>
    rw [withinAll_concat, List.reverse_concat, List.cons_append,
      String.intercalate_cons_of_ne_nil (by simp), ← ih]
    rfl

theorem sources_eq_map_chain : e.sources = e.chain.map Cause.text := by
  induction e with
  | within context cause ih => rw [sources, chain, List.map_cons, ih, Cause.text]
  | _ => rfl

/-- The error and what lies below it begin with what each of the contexts was put around. -/
theorem chain_withinAll :
    .error (e.withinAll contexts) :: (e.withinAll contexts).chain =
      (contexts.inits.reverse.map fun inner => .error (e.withinAll inner)) ++ e.chain := by
  induction contexts using List.reverseRecOn with
  | nil => rfl
  | append_singleton contexts context ih =>
    rw [withinAll_concat, chain, ih, List.inits_append]
    simp [withinAll_concat]

theorem classed_rootCause : e.rootCause.Classed e.rootCause.kind.failure := by
  induction e with
  | missingInput => exact .missingInput
  | conflict => exact .conflict
  | incompleteData => exact .incompleteData
  | missingChecksum => exact .missingChecksum
  | access => exact .access
  | format => exact .format
  | within context cause ih => exact ih

theorem Classed.not_within {cause : Error} {failure : String → DocumentFailure} :
    ¬ Classed (.within context cause) failure := by
  intro classed
  cases classed

theorem ofError_eq : Failure.ofError e = .document (e.rootCause.kind.failure e.message) := by
  rw [Failure.ofError]
  cases e.rootCause.kind <;> rfl

/-- Whatever an error is wrapped in, its root cause is the same and no wrapped error, its text is
that of the contexts from the last to the first and its own, and below it lie the errors that were
wrapped, the last one first, and what lay below before. The caller is told the class of the root
cause, with the full text. -/
theorem wrapping_keeps_cause :
    (e.withinAll contexts).rootCause = e.rootCause ∧
    (∀ context cause, e.rootCause ≠ .within context cause) ∧
    (e.withinAll contexts).message = ": ".intercalate (contexts.reverse ++ [e.message]) ∧
    (e.withinAll contexts).kind = (if contexts = [] then e.kind else .underlying) ∧
    (e.withinAll contexts).chain =
      (contexts.inits.dropLast.reverse.map fun inner => .error (e.withinAll inner)) ++ e.chain ∧
    (e.withinAll contexts).sources = (e.withinAll contexts).chain.map Cause.text ∧
    e.rootCause.Classed e.rootCause.kind.failure ∧
    Failure.ofError (e.withinAll contexts) =
      .document (e.rootCause.kind.failure (e.withinAll contexts).message) := by
  have root := e.rootCause_withinAll contexts
  have below : (e.withinAll contexts).chain =
      (contexts.inits.dropLast.reverse.map fun inner => .error (e.withinAll inner)) ++ e.chain := by
    have whole := congrArg List.tail (e.chain_withinAll contexts)
    rw [List.tail_cons, List.tail_append_of_ne_nil (by cases contexts <;> simp)] at whole
    rw [whole, List.map_reverse, List.map_reverse, List.tail_reverse, List.map_dropLast]
  refine ⟨root, fun context cause same => ?_, e.message_withinAll contexts,
    e.kind_withinAll contexts, below, sources_eq_map_chain _, e.classed_rootCause, ?_⟩
  · exact Classed.not_within context (same ▸ e.classed_rootCause)
  · rw [ofError_eq, root]

end Error
end BillOfMaterials
