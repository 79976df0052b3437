import BillOfMaterials.Proofs.Verification.Licenses
import BillOfMaterials.Proofs.Verification.Recomputed

/-!
# Summing up in any order

Whether files can be summed up, and with what code, is told from their SHA-1 checksums in any order.
The order of the files shows in two places only: in the order of the licences, and in the error,
which is about the first file without a checksum.
-/
namespace BillOfMaterials.Verification

variable {files others : List File} {v : Verification}

/-- The SHA-1 checksums that the files have. -/
def sums (files : List File) : List String := files.filterMap (·.checksum? .sha1)

/-- There are files, and all of them have a SHA-1 checksum. -/
def Summable (files : List File) : Prop := files ≠ [] ∧ ∀ f ∈ files, f.checksum? .sha1 ≠ none

theorem map_some_sums (present : ∀ f ∈ files, f.checksum? .sha1 ≠ none) :
    (sums files).map some = files.map (·.checksum? .sha1) := by
  induction files with
  | nil => rfl
  | cons f files ih =>
    obtain ⟨sum, own⟩ := Option.ne_none_iff_exists'.mp (present f (List.mem_cons_self ..))
    have later := ih fun g member => present g (List.mem_cons_of_mem _ member)
    rw [sums] at later ⊢
    simp only [List.filterMap_cons, List.map_cons, own, later]

/-- Summing up, told from the checksums and the tags of the files. -/
theorem ofFiles_eq_ok_iff_summable : ofFiles files = .ok v ↔ Summable files ∧
    v = ⟨Algorithm.sha1.hashText (codeKey (sums files)), listedLicenses files⟩ := by
  have code {own : List String} (h : files.map (·.checksum? .sha1) = own.map some)
      (present : ∀ f ∈ files, f.checksum? .sha1 ≠ none) : own = sums files := by
    rw [← map_some_sums present] at h
    exact ((List.map_inj_right fun _ _ => Option.some.inj).mp h).symm
  constructor
  · intro summed
    have summable : Summable files := ofFiles_ok_iff.mp ⟨v, summed⟩
    obtain ⟨-, own, taken, rfl⟩ := ofFiles_eq_ok_iff.mp summed
    rw [code taken summable.2]
    exact ⟨summable, rfl⟩
  · rintro ⟨summable, rfl⟩
    exact ofFiles_eq_ok_iff.mpr
      ⟨summable.1, sums files, (map_some_sums summable.2).symm, rfl⟩

section Reordered

variable (same : (others.map (·.checksum? .sha1)).Perm (files.map (·.checksum? .sha1)))

include same

theorem summable_congr : Summable others ↔ Summable files := by
  have told (files : List File) : Summable files ↔
      files.map (·.checksum? .sha1) ≠ [] ∧ none ∉ files.map (·.checksum? .sha1) := by
    simp [Summable]
  rw [told, told, same.mem_iff, Ne, ← List.length_eq_zero_iff, same.length_eq,
    List.length_eq_zero_iff]

theorem sums_perm : (sums others).Perm (sums files) := by
  have told (files : List File) : sums files = (files.map (·.checksum? .sha1)).filterMap id := by
    rw [sums, List.filterMap_map]
    rfl
  rw [told, told]
  exact same.filterMap id

end Reordered

theorem codeKey_eq_of_ascending {own ascending : List String} (same : ascending.Perm own)
    (h : ascending.Pairwise (· ≤ ·)) : codeKey own = String.join ascending :=
  congrArg String.join (sorted_eq_of_ascending same h)

theorem codeKey_congr {own own' : List String} (same : own.Perm own') :
    codeKey own = codeKey own' :=
  codeKey_eq_of_ascending ((List.mergeSort_perm ..).trans same.symm) (sorted_ascending own')

theorem mem_listedLicenses_congr (same : others.Perm files) (tag : String) :
    tag ∈ listedLicenses others ↔ tag ∈ listedLicenses files := by
  rcases untagged_or_tagged files with untagged | tagged
  · have elsewhere : ∀ f ∈ others, f.licenseInfo = "" :=
      fun f member => untagged f (same.mem_iff.mp member)
    rw [listedLicenses_of_untagged untagged, listedLicenses_of_untagged elsewhere]
  · obtain ⟨f, member, filled⟩ := tagged
    rw [(rollsUp_listedLicenses files).tagged ⟨f, member, filled⟩,
      (rollsUp_listedLicenses others).tagged ⟨f, same.mem_iff.mpr member, filled⟩]
    simp only [same.mem_iff]

/-- Files with the same checksums, in any order, have one code, that of their checksums put together
in ascending order. In another order the files themselves give the same licences as well. If there
is no code, the first file without a checksum tells why. -/
theorem ofFiles_in_any_order (files : List File) :
    (∀ e, ofFiles files = .error e ↔ Gap files e) ∧
    ((∃ e, ofFiles files = .error e) ↔ files = [] ∨ ∃ f ∈ files, f.checksum? .sha1 = none) ∧
    (∀ v, ofFiles files = .ok v → ∃ ascending : List String, ascending.Pairwise (· ≤ ·) ∧
      (ascending.map some).Perm (files.map (·.checksum? .sha1)) ∧
      v.code = Algorithm.sha1.hashText (String.join ascending)) ∧
    (∀ others, (others.map (·.checksum? .sha1)).Perm (files.map (·.checksum? .sha1)) →
      ∀ v, ofFiles files = .ok v → ∃ v', ofFiles others = .ok v' ∧ v'.code = v.code) ∧
    ∀ others, others.Perm files →
      ((∃ v', ofFiles others = .ok v') ↔ ∃ v, ofFiles files = .ok v) ∧
      ∀ v' v, ofFiles others = .ok v' → ofFiles files = .ok v →
        v'.code = v.code ∧ ∀ tag, tag ∈ v'.licenses ↔ tag ∈ v.licenses := by
  have ok_iff (files : List File) : (∃ v, ofFiles files = .ok v) ↔ Summable files := ofFiles_ok_iff
  refine ⟨fun e => ofFiles_eq_error_iff, ?_, ?_, ?_, ?_⟩
  · have fails : (∃ e, ofFiles files = .error e) ↔ ¬ ∃ v, ofFiles files = .ok v := by
      cases ofFiles files <;> simp
    rw [fails, ok_iff, Summable]
    by_cases empty : files = [] <;> simp [empty]
  · intro v summed
    obtain ⟨summable, rfl⟩ := ofFiles_eq_ok_iff_summable.mp summed
    refine ⟨sorted (sums files), sorted_ascending _, ?_, rfl⟩
    rw [← map_some_sums summable.2]
    exact (List.mergeSort_perm ..).map some
  · intro others same v summed
    obtain ⟨summable, rfl⟩ := ofFiles_eq_ok_iff_summable.mp summed
    refine ⟨_, ofFiles_eq_ok_iff_summable.mpr ⟨(summable_congr same).mpr summable, rfl⟩, ?_⟩
    rw [codeKey_congr (sums_perm same)]
  · intro others same
    have sameSums := same.map (·.checksum? .sha1)
    rw [ok_iff, ok_iff]
    refine ⟨summable_congr sameSums, fun v' v summed' summed => ?_⟩
    obtain ⟨-, rfl⟩ := ofFiles_eq_ok_iff_summable.mp summed
    obtain ⟨-, rfl⟩ := ofFiles_eq_ok_iff_summable.mp summed'
    rw [codeKey_congr (sums_perm sameSums)]
    exact ⟨rfl, mem_listedLicenses_congr same⟩

/-- Two files in both orders, with other data besides. -/
theorem ofFiles_in_any_order_of_two :
    let f : File := ((File.named "a.c").withChecksum .sha1 "ff").withLicenseInfo "MIT"
    let g : File := ((File.named "b.c").withChecksum .sha1 "00").withChecksum .sha256 "11"
    ∃ v v', ofFiles [f, g] = .ok v ∧ ofFiles [g, f] = .ok v' ∧
      v.code = Algorithm.sha1.hashText "00ff" ∧ v'.code = v.code := by
  intro f g
  refine ⟨_, _, rfl, rfl, ?_, ?_⟩
  · exact congrArg Algorithm.sha1.hashText (codeKey_eq_of_ascending (.swap ..) (by decide))
  · exact (((ofFiles_in_any_order [f, g]).2.2.2.2 [g, f] (.swap ..)).2 _ _ rfl rfl).1

end BillOfMaterials.Verification
