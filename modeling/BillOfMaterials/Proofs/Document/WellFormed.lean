import BillOfMaterials.Proofs.Document.Form
import BillOfMaterials.Proofs.Verification.Licenses
import BillOfMaterials.Proofs.Verification.Recomputed

/-!
# Well-formed stanzas

The stanzas of a rendered tree have the form of their kind whatever data the packages and files
hold. For a file this is so by the way in which its stanza is built; for a package it rests on what
the rendering found out about its files.
-/
namespace BillOfMaterials

open Stanza

namespace File

def form : Form := [
  ⟨"FileName", .atMostOnce⟩,
  ⟨"SPDXID", .atMostOnce⟩,
  ⟨"FileChecksum", .anyTimes⟩,
  ⟨"LicenseConcluded", .once⟩,
  ⟨"LicenseInfoInFile", .once⟩,
  ⟨"FileCopyrightText", .once⟩]

def rows (f : File) : List Row := [
  .optional "FileName" f.name,
  .optional "SPDXID" f.id,
  .checksums "FileChecksum" f.checksums,
  .stated "LicenseConcluded" f.licenseConcluded .noAssertion,
  .stated "LicenseInfoInFile" f.licenseInfo .noAssertion,
  .block "FileCopyrightText" f.copyrightText .noAssertion]

structure WellFormed (f : File) : Prop where
  form : f.stanza.Follows form
  checksums : ListsChecksums f.checksums (f.stanza.values "FileChecksum")

theorem stanza_eq_ofRows (f : File) : f.stanza = ofRows f.rows := by
  simp [stanza, rows, ofRows, pushSome_eq, pushOr_eq, pushTextOr_eq, checksumFields_eq]

theorem fits_rows (f : File) : ∀ r ∈ f.rows, r.Fits := by
  simp only [rows, List.forall_mem_cons]
  exact ⟨Row.optional_fits .., Row.optional_fits .., Row.checksums_fits .., Row.stated_fits ..,
    Row.stated_fits .., Row.block_fits .., fun _ => nofun⟩

theorem wellFormed (f : File) : f.WellFormed := by
  have distinct : (f.rows.map (·.tag)).Nodup := show (form.map Slot.tag).Nodup by decide
  constructor
  · rw [stanza_eq_ofRows]
    exact follows_ofRows distinct f.fits_rows
  · rw [stanza_eq_ofRows]
    exact listsChecksums_ofRows distinct (by simp [rows])

end File

/-- Licences as a package lists them. -/
structure ListedLicenses (tags : List String) : Prop where
  distinct : tags.Nodup
  filled : "" ∉ tags
  asserted : "NOASSERTION" ∉ tags
  alone : "NONE" ∈ tags → tags = ["NONE"]

theorem listedLicenses_none : ListedLicenses ["NONE"] :=
  ⟨by decide, by decide, by decide, fun _ => rfl⟩

theorem Verification.RollsUp.listed {files : List File} {tags : List String}
    (rolled : RollsUp files tags) : ListedLicenses tags := by
  rcases untagged_or_tagged files with untagged | tagged
  · rw [rolled.untagged untagged]
    exact listedLicenses_none
  · have named (tag : String) (member : tag ∈ tags) : NamesLicense tag :=
      ((rolled.tagged tagged tag).mp member).1
    exact ⟨rolled.distinct, fun member => (named _ member).1 rfl, fun member =>
      (named _ member).2.2 rfl, fun member => absurd rfl (named _ member).2.1⟩

namespace Package

def form : Form := [
  ⟨"PackageName", .atMostOnce⟩,
  ⟨"SPDXID", .atMostOnce⟩,
  ⟨"PackageChecksum", .anyTimes⟩,
  ⟨"PackageDownloadLocation", .once⟩,
  ⟨"FilesAnalyzed", .once⟩,
  ⟨"PackageVerificationCode", .atMostOnce⟩,
  ⟨"PackageLicenseConcluded", .once⟩,
  ⟨"PackageFileName", .atMostOnce⟩,
  ⟨"PackageLicenseInfoFromFiles", .anyTimes⟩,
  ⟨"PackageVersion", .atMostOnce⟩,
  ⟨"PackageLicenseDeclared", .once⟩,
  ⟨"PackageCopyrightText", .once⟩]

def rows (info : PackageInfo) (v : Verification) : List Row := [
  .optional "PackageName" info.name,
  .optional "SPDXID" info.id,
  .checksums "PackageChecksum" info.checksums,
  .stated "PackageDownloadLocation" info.downloadLocation .none,
  .single "FilesAnalyzed" (if info.filesAnalyzed then "true" else "false"),
  .optional "PackageVerificationCode" v.code,
  .stated "PackageLicenseConcluded" info.licenseConcluded .noAssertion,
  .optional "PackageFileName" info.fileName,
  .several "PackageLicenseInfoFromFiles" v.licenses,
  .optional "PackageVersion" info.version,
  .stated "PackageLicenseDeclared" info.licenseDeclared .noAssertion,
  .block "PackageCopyrightText" info.copyrightText .noAssertion]

structure WellFormed (q : Package) : Prop where
  form : q.stanza.Follows form
  checksums : ListsChecksums q.info.checksums (q.stanza.values "PackageChecksum")
  licenses : ListedLicenses (q.stanza.values "PackageLicenseInfoFromFiles")

variable {info : PackageInfo} {v : Verification}

theorem fields_eq_ofRows (info : PackageInfo) (v : Verification) :
    fields info v = ofRows (rows info v) := by
  have licenses : v.licenses.map (Field.mk "PackageLicenseInfoFromFiles") =
      (Row.several "PackageLicenseInfoFromFiles" v.licenses).fields := rfl
  simp [fields, rows, ofRows, push_eq, pushSome_eq, pushOr_eq, pushTextOr_eq, checksumFields_eq,
    licenses]

theorem fits_rows (listed : "" ∉ v.licenses) : ∀ r ∈ rows info v, r.Fits := by
  have told : (if info.filesAnalyzed then "true" else "false") ≠ "" := by
    split <;> decide
  simp only [rows, List.forall_mem_cons]
  exact ⟨Row.optional_fits .., Row.optional_fits .., Row.checksums_fits .., Row.stated_fits ..,
    Row.single_fits _ told, Row.optional_fits .., Row.stated_fits .., Row.optional_fits ..,
    Row.several_fits _ listed, Row.optional_fits .., Row.stated_fits .., Row.block_fits ..,
    fun _ => nofun⟩

/-- The licences that are listed decide whether the stanza is as it should be. -/
theorem wellFormed_iff {q : Package} : q.WellFormed ↔ ListedLicenses q.verification.licenses := by
  have licenses : q.stanza.values "PackageLicenseInfoFromFiles" = q.verification.licenses :=
    values_licenseInfoFromFiles q.info q.verification
  have distinct : ((rows q.info q.verification).map (·.tag)).Nodup :=
    show (form.map Slot.tag).Nodup by decide
  constructor
  · exact fun wellFormed => licenses ▸ wellFormed.licenses
  · intro listed
    refine ⟨?_, ?_, licenses.symm ▸ listed⟩
    · rw [stanza, fields_eq_ofRows]
      exact follows_ofRows distinct (fits_rows listed.filled)
    · rw [stanza, fields_eq_ofRows]
      exact listsChecksums_ofRows distinct (by simp [rows])

theorem listedLicenses_of_verify {files : SortedMap File} (verified : verify info files = .ok v) :
    ListedLicenses v.licenses := by
  by_cases on : info.filesAnalyzed = true
  · rw [verify_of_analyzed on] at verified
    obtain ⟨-, _, -, rfl⟩ := Verification.ofFiles_eq_ok_iff.mp verified
    exact (Verification.rollsUp_listedLicenses files.values).listed
  · rw [verify, if_neg on, Except.ok.injEq] at verified
    rw [← verified]
    exact listedLicenses_none

/-- Whatever has been done to a tree before, after a successful rendering the stanzas that it has
written, of every package and of every file of the tree, are well formed. -/
theorem stanzas_wellFormed {p : Package} {text : String} (h : p.render.result = .ok text) :
    p.render.state.outline.text = text ∧ p.render.state.lasting = p.lasting ∧
      ∀ q ∈ p.render.state.preorder, q.WellFormed ∧ ∀ f ∈ q.files.values, f.WellFormed := by
  refine ⟨p.text_outline_of_render h, p.lasting_render, ?_⟩
  rw [p.state_render_of_ok h, refreshed, preorder_mapOwn, List.forall_mem_map]
  intro q member
  obtain ⟨v, verified⟩ := verify_of_render_ok h q member
  obtain ⟨-, -, summary⟩ := refreshed_of_verify verified
  rw [← refreshed, wellFormed_iff, summary]
  exact ⟨listedLicenses_of_verify verified, fun f _ => f.wellFormed⟩

/-- Licences that an earlier state has left behind are not written. -/
theorem stanzas_wellFormed_of_stale_app :
    let file : File := ({ id := "File-a", licenseInfo := "MIT" } : File).withChecksum .sha1 "00"
    let lib : Package := ⟨{ name := "lib", filesAnalyzed := true, id := "Package-lib" },
      ⟨"stale", ["", "NONE", "MIT", "MIT"]⟩,
      ⟨[("File-a", file.withChecksum .sha256 "")], by decide +kernel⟩, .nil, .nil, {}⟩
    let p : Package := ⟨{ name := "app", id := "Package-app" }, {}, .empty, .nil,
      .cons "Package-lib" trivial lib .nil, {}⟩
    ¬ lib.WellFormed ∧ ∃ text, p.render.result = .ok text ∧
      ∀ q ∈ p.render.state.preorder, q.WellFormed ∧ ∀ f ∈ q.files.values, f.WellFormed := by
  intro file lib p
  refine ⟨fun wellFormed => ?_, _, rfl, (stanzas_wellFormed rfl).2.2⟩
  exact (wellFormed_iff.mp wellFormed).filled (List.mem_cons_self ..)

end Package

end BillOfMaterials
