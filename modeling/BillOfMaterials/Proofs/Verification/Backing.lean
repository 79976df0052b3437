import BillOfMaterials.Proofs.Store.Attachment
import BillOfMaterials.Proofs.Verification.Recomputed

/-!
# Files backed by a checksum

Summing up asks every file of an analysed package for a SHA-1 checksum, and an empty one will do;
the stanza of the file leaves an empty one out. After a successful rendering, the files that show no
SHA-1 checksum are those whose checksum is empty.
-/
namespace BillOfMaterials

namespace File

variable {f : File}

/-- The stanza of the file shows a SHA-1 checksum. -/
def Backed (f : File) : Prop := ∃ sum ∈ f.stanza.checksumsOf .sha1, sum ≠ ""

instance (f : File) : Decidable f.Backed := inferInstanceAs (Decidable (∃ sum ∈ _, _))

/-- A checksum that is not empty is shown, whatever the keys of the others are. -/
theorem mem_checksumsOf_stanza {a : Algorithm} {sum : String} (own : f.checksum? a = some sum)
    (filled : sum ≠ "") : sum ∈ f.stanza.checksumsOf a := by
  have entry : (a.name, sum) ∈ f.checksums.entries :=
    (lookup_eq_some_iff_mem f.checksums.ascending).mp own
  have kept : (a.name, sum) ∈ f.checksums.entries.filter fun c => !c.2.isEmpty :=
    List.mem_filter.mpr ⟨entry, by simpa using filled⟩
  rw [Stanza.checksumsOf, values_fileChecksum, List.mem_filterMap]
  exact ⟨_, List.mem_map_of_mem kept, textAfter?_eq_some_iff.mpr rfl⟩

/-- What a file of a package shows once its checksum has been taken in. -/
structure Hashed (f : File) : Prop where
  present : f.checksum? .sha1 ≠ none
  backed : f.checksum? .sha1 ≠ some "" → f.Backed
  /-- No other field reads as a SHA-1 checksum if no key holds a colon. -/
  blank : f.PlainKeys → f.checksum? .sha1 = some "" → ¬ f.Backed

theorem hashed_of_present (present : f.checksum? .sha1 ≠ none) : f.Hashed where
  present := present
  backed filled := by
    obtain ⟨sum, own⟩ := Option.ne_none_iff_exists'.mp present
    have nonempty : sum ≠ "" := fun empty => filled (empty ▸ own)
    exact ⟨sum, mem_checksumsOf_stanza own nonempty, nonempty⟩
  blank plain own := by
    rintro ⟨sum, shown, -⟩
    rw [checksumsOf_stanza plain, own] at shown
    simp [Option.filter] at shown

end File

namespace Package

/-- Summing up the files of a package fails only over what makes it unsummable. -/
theorem unsummable_of_gap {p : Package} {e : Error} (analyzed : p.info.filesAnalyzed = true)
    (gap : Verification.Gap p.files.values e) : p.Unsummable := by
  refine unsummable_iff.mpr ⟨analyzed, ?_⟩
  rintro ⟨v, summed⟩
  rw [Verification.ofFiles_eq_error_iff.mpr gap] at summed
  cases summed

theorem Fault.kind {p : Package} {e : Error} (fault : p.Fault e) :
    (e.kind = .missingInput ∧ p.Unnamed) ∨ (e.kind = .incompleteData ∧ p.Unsummable) := by
  cases fault with
  | unnamed h => exact .inl ⟨rfl, h⟩
  | gap named analyzed gap => exact .inr ⟨gap.kind, unsummable_of_gap analyzed gap⟩

/-- Every package of a tree that can be rendered keeps its files, all with a SHA-1 checksum if they
are analysed. -/
theorem checksum?_of_render_ok {p : Package} {text : String} (h : p.render.result = .ok text) :
    ∀ q ∈ p.render.state.preorder, q.info.filesAnalyzed = true →
      ∀ f ∈ q.files.values, f.checksum? .sha1 ≠ none := by
  rw [p.state_render_of_ok h, refreshed, preorder_mapOwn, List.forall_mem_map]
  intro q member
  rw [← refreshed]
  obtain ⟨v, verified⟩ := verify_of_render_ok h q member
  obtain ⟨info, files, -⟩ := refreshed_of_verify verified
  rw [info, files]
  intro analyzed
  rw [verify_of_analyzed analyzed] at verified
  exact (Verification.ofFiles_ok_iff.mp ⟨v, verified⟩).2

/-- In a document, every file of an analysed package is backed by its SHA-1 checksum, unless that is
empty. There is no document if such a file has no SHA-1 checksum at all: the data is incomplete
then, or an identifier missing. -/
theorem files_backed_unless_blank (p : Package) :
    (∀ text, p.render.result = .ok text →
      p.render.state.outline.text = text ∧ p.render.state.lasting = p.lasting ∧
      ∀ q ∈ p.render.state.preorder, q.info.filesAnalyzed = true → ∀ f ∈ q.files.values, f.Hashed) ∧
    ∀ e, p.render.result = .error e →
      ∃ q ∈ p.preorder, (e.rootCause.kind = .missingInput ∧ q.Unnamed) ∨
        (e.rootCause.kind = .incompleteData ∧ q.Unsummable) := by
  constructor
  · intro text h
    refine ⟨p.text_outline_of_render h, p.lasting_render, fun q member analyzed f listed => ?_⟩
    exact File.hashed_of_present (checksum?_of_render_ok h q member analyzed f listed)
  · intro e h
    obtain ⟨v, cause, found, fault, -, -, root⟩ := (p.render_decided_by_first_defect.2 e).mp h
    rw [root]
    exact ⟨v.package, List.mem_map_of_mem (List.mem_of_find?_eq_some found), fault.kind⟩

/-- A package with one analysed file, whose checksum is empty, can be rendered. -/
theorem blank_checksum_backs_no_file :
    ¬ ∀ (p : Package) (text : String), p.render.result = .ok text →
      ∀ q ∈ p.render.state.preorder, q.info.filesAnalyzed = true →
        ∀ f ∈ q.files.values, f.Backed := by
  intro backed
  let app : Package := childless { name := "app", id := "Package-app", filesAnalyzed := true } {} {}
  let p : Package := (app.add (.file ((File.named "main.c").withChecksum .sha1 ""))).state
  exact absurd (backed p _ rfl) (by decide +kernel)

end Package
end BillOfMaterials
