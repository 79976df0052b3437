import BillOfMaterials.Proofs.Outcome
import BillOfMaterials.Verification

/-!
# When files cannot be summed up

Files can be summed up when there are any and each has a SHA-1 checksum. Otherwise the first file
without one decides the error, which tells a file without checksums from one with others only.
-/
namespace BillOfMaterials

theorem File.label_eq (f : File) : f.label = if f.name = "" then f.id else f.name := by
  simp only [label, String.isEmpty_iff]

theorem File.checksum?_sha1 (f : File) : f.checksum? .sha1 = f.checksums.find? "SHA1" := rfl

namespace Verification

/-- `Gap files e`: the files cannot be summed up, for the reason that `e` gives. A file is told by
its name, and by its identifier if it has none. -/
inductive Gap : List File → Error → Prop
  | noFiles : Gap [] (.incompleteData .noFiles)
  | noChecksums {front back : List File} {f : File}
      (before : ∀ g ∈ front, g.checksums.find? "SHA1" ≠ none) (bare : f.checksums.entries = []) :
      Gap (front ++ f :: back)
        (.incompleteData (.noChecksums (if f.name = "" then f.id else f.name)))
  | noSha1 {front back : List File} {f : File}
      (before : ∀ g ∈ front, g.checksums.find? "SHA1" ≠ none)
      (others : f.checksums.entries ≠ []) (missing : f.checksums.find? "SHA1" = none) :
      Gap (front ++ f :: back) (.missingChecksum (if f.name = "" then f.id else f.name) "SHA1")

theorem Gap.rootCause {files : List File} {e : Error} (gap : Gap files e) : e.rootCause = e := by
  cases gap <;> rfl

theorem Gap.kind {files : List File} {e : Error} (gap : Gap files e) : e.kind = .incompleteData := by
  cases gap <;> rfl

theorem checksum?_of_bare {f : File} (bare : f.checksums.entries = []) (a : Algorithm) :
    f.checksum? a = none := by
  rw [File.checksum?, SortedMap.find?, bare, List.lookup_nil]

theorem checksum_of_bare {f : File} (bare : f.checksums.entries = []) :
    checksum f = .error (.incompleteData (.noChecksums f.label)) := by
  rw [checksum, SortedMap.isEmpty, bare]
  rfl

theorem checksum_of_others {f : File} (others : f.checksums.entries ≠ []) :
    checksum f = match f.checksum? .sha1 with
      | some sum => .ok sum
      | none => .error (.missingChecksum f.label "SHA1") := by
  rw [checksum, if_neg]
  · rfl
  · rw [SortedMap.isEmpty, List.isEmpty_iff]
    exact others

theorem checksum_eq_ok_iff {f : File} {sum : String} :
    checksum f = .ok sum ↔ f.checksum? .sha1 = some sum := by
  by_cases bare : f.checksums.entries = []
  · rw [checksum_of_bare bare, checksum?_of_bare bare]
    constructor <;> intro h <;> cases h
  · rw [checksum_of_others bare]
    cases f.checksum? .sha1 with
    | none => constructor <;> intro h <;> cases h
    | some other =>
      rw [Except.ok.injEq, Option.some.injEq]

theorem checksum_ok_iff {f : File} : (∃ sum, checksum f = .ok sum) ↔ f.checksum? .sha1 ≠ none := by
  rw [Option.ne_none_iff_exists']
  exact exists_congr fun _ => checksum_eq_ok_iff

theorem checksum_eq_error_iff {f : File} {e : Error} :
    checksum f = .error e ↔
      (f.checksums.entries = [] ∧ e = .incompleteData (.noChecksums f.label)) ∨
      (f.checksums.entries ≠ [] ∧ f.checksum? .sha1 = none ∧
        e = .missingChecksum f.label "SHA1") := by
  by_cases bare : f.checksums.entries = []
  · rw [checksum_of_bare bare, Except.error.injEq]
    simp [bare, eq_comm]
  · rw [checksum_of_others bare]
    cases f.checksum? .sha1 <;> simp [bare, eq_comm]

/-- Every checksum is the file's own, in the order of the files. -/
theorem checksums_eq_ok_iff {files : List File} {sums : List String} :
    checksums files = .ok sums ↔ files.map (·.checksum? .sha1) = sums.map some := by
  rw [checksums, mapM_eq_ok_iff]
  induction files generalizing sums with
  | nil => cases sums <;> simp
  | cons f rest ih =>
    cases sums with
    | nil => simp
    | cons sum sums =>
      rw [List.map_cons, List.map_cons, List.map_cons, List.map_cons, List.cons.injEq,
        List.cons.injEq, checksum_eq_ok_iff, ih]

/-- What successful summing up amounts to. -/
theorem ofFiles_eq_ok_iff {files : List File} {v : Verification} :
    ofFiles files = .ok v ↔ files ≠ [] ∧ ∃ sums, files.map (·.checksum? .sha1) = sums.map some ∧
      v = ⟨Algorithm.sha1.hashText (codeKey sums), listedLicenses files⟩ := by
  rw [ofFiles]
  cases summed : checksums files with
  | error e =>
    constructor
    · intro h
      cases h
    · rintro ⟨-, sums, own, -⟩
      rw [checksums_eq_ok_iff.mpr own] at summed
      cases summed
  | ok sums =>
    have own := checksums_eq_ok_iff.mp summed
    have unique : ∀ others, files.map (·.checksum? .sha1) = others.map some → others = sums := by
      intro others h
      rw [own] at h
      exact (List.map_inj_right fun _ _ => Option.some.inj).mp h.symm
    cases sums with
    | nil =>
      rw [List.map_nil, List.map_eq_nil_iff] at own
      simp [own]
    | cons sum rest =>
      have some_files : files ≠ [] := by
        intro none
        rw [none] at own
        cases own
      constructor
      · intro h
        exact ⟨some_files, sum :: rest, own, (Except.ok.inj h).symm⟩
      · rintro ⟨-, others, h, rfl⟩
        rw [unique others h]

theorem ofFiles_eq_error_iff {files : List File} {e : Error} :
    ofFiles files = .error e ↔ Gap files e := by
  constructor
  · intro h
    rw [ofFiles] at h
    cases summed : checksums files with
    | error e' =>
      rw [summed] at h
      cases h
      obtain ⟨front, f, back, rfl, passed, failed⟩ := mapM_eq_error_iff.mp summed
      have before : ∀ g ∈ front, g.checksum? .sha1 ≠ none :=
        fun g member => checksum_ok_iff.mp (passed g member)
      rcases checksum_eq_error_iff.mp failed with ⟨bare, rfl⟩ | ⟨others, missing, rfl⟩
      · rw [f.label_eq]
        exact .noChecksums before bare
      · rw [f.label_eq]
        exact .noSha1 before others missing
    | ok sums =>
      rw [summed] at h
      cases sums with
      | cons sum rest => cases h
      | nil =>
        cases h
        rw [checksums_eq_ok_iff, List.map_nil, List.map_eq_nil_iff] at summed
        rw [summed]
        exact .noFiles
  · intro gap
    cases gap with
    | noFiles => rfl
    | @noChecksums front back f before bare =>
      have failed : checksums (front ++ f :: back) = .error _ := mapM_eq_error_iff.mpr
        ⟨front, f, back, rfl, fun g member => checksum_ok_iff.mpr (before g member),
          checksum_of_bare bare⟩
      rw [ofFiles, failed, f.label_eq]
    | @noSha1 front back f before others missing =>
      have failed : checksums (front ++ f :: back) = .error _ := mapM_eq_error_iff.mpr
        ⟨front, f, back, rfl, fun g member => checksum_ok_iff.mpr (before g member),
          checksum_eq_error_iff.mpr (.inr ⟨others, missing, rfl⟩)⟩
      rw [ofFiles, failed, f.label_eq]

/-- Summing up succeeds when there are files and none lacks its SHA-1 checksum. -/
theorem ofFiles_ok_iff {files : List File} :
    (∃ v, ofFiles files = .ok v) ↔ files ≠ [] ∧ ∀ f ∈ files, f.checksum? .sha1 ≠ none := by
  constructor
  · rintro ⟨v, h⟩
    obtain ⟨some_files, sums, own, -⟩ := ofFiles_eq_ok_iff.mp h
    refine ⟨some_files, fun f member missing => ?_⟩
    have listed : f.checksum? .sha1 ∈ files.map (·.checksum? .sha1) := List.mem_map_of_mem member
    rw [own, missing] at listed
    simp at listed
  · rintro ⟨some_files, present⟩
    cases h : ofFiles files with
    | ok v => exact ⟨v, rfl⟩
    | error e =>
      cases ofFiles_eq_error_iff.mp h with
      | noFiles => exact absurd rfl some_files
      | @noChecksums front back f before bare =>
        exact absurd (checksum?_of_bare bare .sha1) (present f (by simp))
      | @noSha1 front back f before others missing =>
        exact absurd missing (present f (by simp))

end Verification
end BillOfMaterials
