import BillOfMaterials.Proofs.Verification.Gap
import Mathlib.Data.List.Basic

/-!
# Licence roll-ups

The licences of a package are the tags of its files, each once, in the order in which the files
first carry them. Placeholders are left out, unless no file has a tag: then one placeholder stands
alone. This tells the roll-up of any files, and tells it from every other list.
-/
namespace BillOfMaterials.Verification

section FirstOccurrences

variable {α : Type} [DecidableEq α] {l : List α}

/-- An element behind another one that passes a filter was behind it before. -/
theorem idxOf_lt_of_filter (keep : α → Bool) {a b : α} (hb : keep b = true)
    (h : (l.filter keep).idxOf a < (l.filter keep).idxOf b) : l.idxOf a < l.idxOf b := by
  induction l with
  | nil => exact h
  | cons c l ih =>
    by_cases kept : keep c = true
    · rw [List.filter_cons_of_pos kept] at h
      by_cases first : c = a <;> by_cases second : c = b <;>
        simp_all [List.idxOf_cons, cond_eq_ite]
    · rw [List.filter_cons_of_neg kept] at h
      have apart : c ≠ b := fun same => kept (same ▸ hb)
      rw [List.idxOf_cons_ne l apart]
      calc
        (c :: l).idxOf a ≤ l.idxOf a + 1 := by
          rw [List.idxOf_cons]
          cases c == a <;> simp
        _ < l.idxOf b + 1 := Nat.succ_lt_succ (ih h)

/-- Without its repetitions a list has its elements in the order of their first occurrences. -/
theorem pairwise_eraseDups (l : List α) :
    l.eraseDups.Pairwise fun a b => l.idxOf a < l.idxOf b := by
  match l with
  | [] => exact .nil
  | c :: l =>
    have others {a : α} (member : a ∈ (l.filter fun a => !a == c).eraseDups) : c ≠ a := by
      have kept := (List.mem_filter.mp (List.mem_eraseDups.mp member)).2
      exact fun same => by simp [same] at kept
    rw [List.eraseDups_cons, List.pairwise_cons]
    constructor
    · intro a member
      rw [List.idxOf_cons_self, List.idxOf_cons_ne l (others member)]
      exact Nat.succ_pos _
    · refine (pairwise_eraseDups (l.filter fun a => !a == c)).imp_of_mem fun ha hb earlier => ?_
      rw [List.idxOf_cons_ne l (others ha), List.idxOf_cons_ne l (others hb)]
      exact Nat.succ_lt_succ (idxOf_lt_of_filter _ (by simpa using (others hb).symm) earlier)
termination_by l.length
decreasing_by exact Nat.lt_succ_of_le (List.length_filter_le ..)

/-- A list is in the strict order of a rank exactly if nothing occurs twice and the rank tells which
of two elements occurs first. -/
theorem pairwise_rank_iff (rank : α → Nat) :
    (l.Pairwise fun a b => rank a < rank b) ↔
      l.Nodup ∧ ∀ a ∈ l, ∀ b ∈ l, l.idxOf a < l.idxOf b ↔ rank a < rank b := by
  constructor
  · intro sorted
    have distinct : l.Nodup := sorted.imp fun lt same => absurd (same ▸ lt) (Nat.lt_irrefl _)
    refine ⟨distinct, fun a ha b hb => ?_⟩
    obtain ⟨i, hi, rfl⟩ := List.getElem_of_mem ha
    obtain ⟨j, hj, rfl⟩ := List.getElem_of_mem hb
    have ranked := List.pairwise_iff_getElem.mp sorted
    rw [distinct.idxOf_getElem, distinct.idxOf_getElem]
    constructor
    · exact ranked i j hi hj
    · intro lt
      rcases Nat.lt_trichotomy i j with before | same | after
      · exact before
      · subst same
        exact absurd lt (Nat.lt_irrefl _)
      · exact absurd lt (Nat.lt_asymm (ranked j i hj hi after))
  · rintro ⟨distinct, ordered⟩
    rw [List.pairwise_iff_getElem]
    intro i j hi hj before
    rw [← ordered _ (List.getElem_mem hi) _ (List.getElem_mem hj), distinct.idxOf_getElem,
      distinct.idxOf_getElem]
    exact before

end FirstOccurrences

/-- The tag names a licence: it is not empty and no placeholder. -/
def NamesLicense (tag : String) : Prop := tag ≠ "" ∧ tag ≠ "NONE" ∧ tag ≠ "NOASSERTION"

/-- How many files come before the first that carries the tag. -/
def firstUse (files : List File) (tag : String) : Nat := (files.map File.licenseInfo).idxOf tag

/-- The tags are what the files amount to. -/
structure RollsUp (files : List File) (tags : List String) : Prop where
  untagged : (∀ f ∈ files, f.licenseInfo = "") → tags = ["NONE"]
  tagged : (∃ f ∈ files, f.licenseInfo ≠ "") →
    ∀ tag, tag ∈ tags ↔ NamesLicense tag ∧ ∃ f ∈ files, f.licenseInfo = tag
  distinct : tags.Nodup
  ordered : ∀ a ∈ tags, ∀ b ∈ tags,
    tags.idxOf a < tags.idxOf b ↔ firstUse files a < firstUse files b

variable {files : List File} {tags : List String} {tag : String}

theorem untagged_or_tagged (files : List File) :
    (∀ f ∈ files, f.licenseInfo = "") ∨ ∃ f ∈ files, f.licenseInfo ≠ "" := by
  by_cases untagged : ∀ f ∈ files, f.licenseInfo = ""
  · exact .inl untagged
  · exact .inr (by simpa using untagged)

theorem mem_licenseTags_iff :
    tag ∈ licenseTags files ↔ tag ≠ "" ∧ ∃ f ∈ files, f.licenseInfo = tag := by
  rw [licenseTags, List.mem_eraseDups, List.mem_filter, List.mem_map, and_comm]
  simp

theorem isPlaceholder_iff : isPlaceholder tag = true ↔ tag = "NONE" ∨ tag = "NOASSERTION" := by
  simp [isPlaceholder, Placeholder.text]

theorem listedLicenses_of_untagged (untagged : ∀ f ∈ files, f.licenseInfo = "") :
    listedLicenses files = ["NONE"] := by
  have none : licenseTags files = [] := by
    rw [List.eq_nil_iff_forall_not_mem]
    intro tag member
    obtain ⟨filled, f, listed, rfl⟩ := mem_licenseTags_iff.mp member
    exact filled (untagged f listed)
  rw [listedLicenses, none]
  rfl

theorem listedLicenses_of_tagged (tagged : ∃ f ∈ files, f.licenseInfo ≠ "") :
    listedLicenses files = (licenseTags files).filter fun tag => !isPlaceholder tag := by
  obtain ⟨f, listed, filled⟩ := tagged
  have member : f.licenseInfo ∈ licenseTags files :=
    mem_licenseTags_iff.mpr ⟨filled, f, listed, rfl⟩
  rw [listedLicenses, if_neg]
  rw [List.isEmpty_iff]
  exact List.ne_nil_of_mem member

/-- Leaving out empty tags and then placeholders keeps the order of first uses. -/
theorem pairwise_listedLicenses (files : List File) :
    (listedLicenses files).Pairwise fun a b => firstUse files a < firstUse files b := by
  rcases untagged_or_tagged files with untagged | tagged
  · rw [listedLicenses_of_untagged untagged]
    exact List.pairwise_singleton ..
  · rw [listedLicenses_of_tagged tagged]
    apply List.Pairwise.filter
    refine (pairwise_eraseDups _).imp_of_mem fun _ hb earlier => ?_
    exact idxOf_lt_of_filter _ (List.mem_filter.mp (List.mem_eraseDups.mp hb)).2 earlier

theorem rollsUp_listedLicenses (files : List File) : RollsUp files (listedLicenses files) := by
  obtain ⟨distinct, ordered⟩ := (pairwise_rank_iff _).mp (pairwise_listedLicenses files)
  refine ⟨listedLicenses_of_untagged, fun tagged tag => ?_, distinct, ordered⟩
  rw [listedLicenses_of_tagged tagged, List.mem_filter, mem_licenseTags_iff, NamesLicense,
    Bool.not_eq_true', ← Bool.not_eq_true, isPlaceholder_iff, not_or]
  tauto

/-- The files have one roll-up only. -/
theorem RollsUp.unique {others : List String} (rolled : RollsUp files tags)
    (again : RollsUp files others) : tags = others := by
  rcases untagged_or_tagged files with untagged | tagged
  · rw [rolled.untagged untagged, again.untagged untagged]
  · -- the same tags, in the order of their first uses
    have same : tags.Perm others := by
      rw [List.perm_ext_iff_of_nodup rolled.distinct again.distinct]
      intro tag
      rw [rolled.tagged tagged, again.tagged tagged]
    have ranked := (pairwise_rank_iff (firstUse files)).mpr ⟨rolled.distinct, rolled.ordered⟩
    have rankedAgain := (pairwise_rank_iff (firstUse files)).mpr ⟨again.distinct, again.ordered⟩
    exact same.eq_of_pairwise (fun a b _ _ ab ba => absurd ab (Nat.lt_asymm ba)) ranked rankedAgain

theorem RollsUp.none_mem_iff (rolled : RollsUp files tags) :
    "NONE" ∈ tags ↔ ∀ f ∈ files, f.licenseInfo = "" := by
  constructor
  · intro member
    rcases untagged_or_tagged files with untagged | tagged
    · exact untagged
    · exact absurd rfl ((rolled.tagged tagged "NONE").mp member).1.2.1
  · intro untagged
    rw [rolled.untagged untagged]
    exact List.mem_singleton_self _

theorem RollsUp.eq_nil_iff (rolled : RollsUp files tags) :
    tags = [] ↔ (∃ f ∈ files, f.licenseInfo ≠ "") ∧
      ∀ f ∈ files, f.licenseInfo ≠ "" → f.licenseInfo = "NONE" ∨ f.licenseInfo = "NOASSERTION" := by
  constructor
  · intro empty
    rcases untagged_or_tagged files with untagged | tagged
    · cases empty.symm.trans (rolled.untagged untagged)
    · refine ⟨tagged, fun f listed filled => ?_⟩
      by_contra named
      rw [not_or] at named
      have member := (rolled.tagged tagged f.licenseInfo).mpr ⟨⟨filled, named⟩, f, listed, rfl⟩
      rw [empty] at member
      cases member
  · rintro ⟨tagged, placeholders⟩
    rw [List.eq_nil_iff_forall_not_mem]
    intro tag member
    obtain ⟨⟨filled, named⟩, f, listed, rfl⟩ := (rolled.tagged tagged tag).mp member
    exact (placeholders f listed filled).elim named.1 named.2

/-- What is listed for files that can be summed up is their roll-up and nothing else. It is empty if
there are tags and all of them are placeholders, and `NONE` stands in it alone. -/
theorem licenses_roll_up {v : Verification} (summed : ofFiles files = .ok v) :
    (∀ tags, v.licenses = tags ↔ RollsUp files tags) ∧
    (v.licenses = ["NONE"] ↔ ∀ f ∈ files, f.licenseInfo = "") ∧
    (v.licenses = [] ↔ (∃ f ∈ files, f.licenseInfo ≠ "") ∧
      ∀ f ∈ files, f.licenseInfo ≠ "" → f.licenseInfo = "NONE" ∨ f.licenseInfo = "NOASSERTION") ∧
    ("NONE" ∈ v.licenses → v.licenses = ["NONE"]) := by
  obtain ⟨-, _, -, rfl⟩ := ofFiles_eq_ok_iff.mp summed
  have rolled := rollsUp_listedLicenses files
  refine ⟨fun tags => ⟨?_, rolled.unique⟩, ⟨?_, rolled.untagged⟩, rolled.eq_nil_iff, ?_⟩
  · rintro rfl
    exact rolled
  · intro alone
    dsimp only at alone
    exact rolled.none_mem_iff.mp (by simp [alone])
  · exact rolled.untagged ∘ rolled.none_mem_iff.mp

/-- Files with repeated, missing and placeholder tags. -/
theorem licenses_roll_up_of_mixed_tags :
    let file (name tag : String) : File :=
      ((File.named name).withChecksum .sha1 "00").withLicenseInfo tag
    let files := [file "a" "NOASSERTION", file "b" "MIT", file "c" "", file "d" "Apache-2.0",
      file "e" "MIT", file "f" "NONE"]
    ∃ v, ofFiles files = .ok v ∧ RollsUp files ["MIT", "Apache-2.0"] ∧
      v.licenses = ["MIT", "Apache-2.0"] := by
  intro file files
  refine ⟨_, rfl, ?_⟩
  have listed : listedLicenses files = ["MIT", "Apache-2.0"] := by decide +kernel
  exact ⟨((licenses_roll_up rfl).1 _).mp listed, listed⟩

end BillOfMaterials.Verification
