import BillOfMaterials.Proofs.Document.Reading
import BillOfMaterials.Proofs.Tree.Walk
import BillOfMaterials.Proofs.Verification.Gap

/-!
# Documents are unambiguous

If the strings of two trees have one line each, copyright texts aside, and no copyright text holds
the mark that ends a text block, then the trees render to the same text only if they show the same.
-/
namespace BillOfMaterials

/-- The algorithm names and the values of the checksums that have a value. -/
def checksumStrings (checksums : SortedMap String) : List String :=
  (checksums.entries.filter fun c => !c.2.isEmpty).flatMap fun c => [c.1, c.2]

/-- The strings that the stanza of a file shows, its copyright text aside. -/
def File.strings (f : File) : List String :=
  [f.name, f.id, f.licenseConcluded, f.licenseInfo] ++ checksumStrings f.checksums

/-- The strings that the stanza of a package shows, its copyright text and what its files amount to
aside. -/
def PackageInfo.strings (info : PackageInfo) : List String :=
  [info.name, info.id, info.downloadLocation, info.licenseConcluded, info.fileName, info.version,
    info.licenseDeclared] ++ checksumStrings info.checksums

def File.Legible (f : File) : Prop := (∀ s ∈ f.strings, OneLine s) ∧ Unclosed f.copyrightText

def PackageInfo.Legible (info : PackageInfo) : Prop :=
  (∀ s ∈ info.strings, OneLine s) ∧ Unclosed info.copyrightText

instance (f : File) : Decidable f.Legible := inferInstanceAs (Decidable (_ ∧ _))

instance (info : PackageInfo) : Decidable info.Legible := inferInstanceAs (Decidable (_ ∧ _))

/-- The package itself and its files are legible, whatever its children are. -/
def Package.OwnLegible (p : Package) : Prop := p.info.Legible ∧ ∀ f ∈ p.files.values, f.Legible

instance (p : Package) : Decidable p.OwnLegible := inferInstanceAs (Decidable (_ ∧ _))

/-- Every package of the tree is legible, and so is every file. -/
def Package.Legible (p : Package) : Prop := ∀ q ∈ p.preorder, q.OwnLegible

instance (p : Package) : Decidable p.Legible :=
  inferInstanceAs (Decidable (∀ q ∈ p.preorder, q.OwnLegible))

def Children.Legible {floor : Option String} (c : Children floor) : Prop :=
  ∀ v ∈ c.walk, v.package.OwnLegible

theorem OneLine.append {a b : String} (ha : OneLine a) (hb : OneLine b) : OneLine (a ++ b) := by
  rw [OneLine, String.toList_append, List.mem_append, not_or]
  exact ⟨ha, hb⟩

theorem plain_checksumFields {checksums : SortedMap String} {tag last : String}
    (lines : ∀ s ∈ checksumStrings checksums, OneLine s) (inner : Stanza.Inner last tag) :
    Stanza.Plain last (checksumFields tag checksums) := by
  intro f member
  rw [checksumFields, List.mem_map] at member
  obtain ⟨c, shown, rfl⟩ := member
  have line (s : String) (h : s ∈ [c.1, c.2]) : OneLine s :=
    lines s (List.mem_flatMap.mpr ⟨c, shown, h⟩)
  exact ⟨inner, ((line c.1 (by simp)).append (by decide)).append (line c.2 (by simp))⟩

/-- In front of its copyright text, a file whose strings have one line each shows single lines. -/
theorem File.plain_stanza {f : File} (lines : ∀ s ∈ f.strings, OneLine s) :
    ∃ front, Stanza.Plain "FileCopyrightText" front ∧
      f.stanza = front.pushTextOr "FileCopyrightText" f.copyrightText .noAssertion := by
  have line (s : String) (own : s ∈ [f.name, f.id, f.licenseConcluded, f.licenseInfo]) :
      OneLine s := lines s (List.mem_append_left _ own)
  have sums : ∀ s ∈ checksumStrings f.checksums, OneLine s :=
    fun s own => lines s (List.mem_append_right _ own)
  refine ⟨_, ?_, rfl⟩
  apply Stanza.Plain.pushOr _ (by decide) (line f.licenseInfo (by simp))
  apply Stanza.Plain.pushOr _ (by decide) (line f.licenseConcluded (by simp))
  apply Stanza.Plain.append _ (plain_checksumFields sums (by decide))
  apply Stanza.Plain.pushSome _ (by decide) (line f.id (by simp))
  exact Stanza.plain_nil.pushSome (by decide) (line f.name (by simp))

theorem File.Legible.stanza {f : File} (h : f.Legible) : f.stanza.Legible "FileCopyrightText" := by
  obtain ⟨front, plain, same⟩ := f.plain_stanza h.1
  rw [same]
  exact plain.legible_pushTextOr h.2

/-- What the files amount to is shown in single lines. -/
structure Verification.Legible (v : Verification) : Prop where
  code : OneLine v.code
  licenses : ∀ tag ∈ v.licenses, OneLine tag

theorem Text.Hex.oneLine_encode (bytes : List UInt8) : OneLine (encode bytes) := by
  have digits : ∀ n < 16, digit n ≠ '\n' := by decide
  rw [OneLine, encode, String.toList_ofList, List.mem_flatMap]
  rintro ⟨b, -, member⟩
  rw [ofByte] at member
  have bound := b.toNat_lt
  have high := digits (b.toNat / 16) (by omega)
  have low := digits (b.toNat % 16) (by omega)
  simp [high.symm, low.symm] at member

theorem Verification.oneLine_of_listed {files : List File}
    (lines : ∀ f ∈ files, ∀ s ∈ f.strings, OneLine s) {tag : String}
    (listed : tag ∈ listedLicenses files) : OneLine tag := by
  rw [listedLicenses] at listed
  split at listed
  · rw [List.mem_singleton.mp listed]
    exact Placeholder.none.oneLine_text
  · have carried := (List.mem_filter.mp listed).1
    rw [licenseTags, List.mem_eraseDups] at carried
    obtain ⟨f, member, rfl⟩ := List.mem_map.mp (List.mem_filter.mp carried).1
    exact lines f member _ (by simp [File.strings])

theorem Package.legible_of_verify {info : PackageInfo} {files : SortedMap File} {v : Verification}
    (lines : ∀ f ∈ files.values, ∀ s ∈ f.strings, OneLine s)
    (verified : verify info files = .ok v) : v.Legible := by
  rw [verify] at verified
  split at verified
  · obtain ⟨-, sums, -, rfl⟩ := Verification.ofFiles_eq_ok_iff.mp verified
    exact ⟨Text.Hex.oneLine_encode _, fun _ listed => Verification.oneLine_of_listed lines listed⟩
  · rw [← Except.ok.inj verified]
    refine ⟨by decide, fun tag listed => ?_⟩
    rw [List.mem_singleton.mp listed]
    exact Placeholder.none.oneLine_text

/-- In front of its copyright text, a package whose strings have one line each shows single lines,
given that what its files amount to does. -/
theorem Package.plain_fields {info : PackageInfo} {v : Verification}
    (lines : ∀ s ∈ info.strings, OneLine s) (hv : v.Legible) :
    ∃ front, Stanza.Plain "PackageCopyrightText" front ∧
      fields info v = front.pushTextOr "PackageCopyrightText" info.copyrightText .noAssertion := by
  have line (s : String) (own : s ∈ [info.name, info.id, info.downloadLocation,
      info.licenseConcluded, info.fileName, info.version, info.licenseDeclared]) :
      OneLine s := lines s (List.mem_append_left _ own)
  have sums : ∀ s ∈ checksumStrings info.checksums, OneLine s :=
    fun s own => lines s (List.mem_append_right _ own)
  have license : Stanza.Inner "PackageCopyrightText" "PackageLicenseInfoFromFiles" := by decide
  have analyzed : OneLine (if info.filesAnalyzed then "true" else "false") := by
    split <;> decide
  refine ⟨_, ?_, rfl⟩
  apply Stanza.Plain.pushOr _ (by decide) (line info.licenseDeclared (by simp))
  apply Stanza.Plain.pushSome _ (by decide) (line info.version (by simp))
  apply Stanza.Plain.append
  · apply Stanza.Plain.pushSome _ (by decide) (line info.fileName (by simp))
    apply Stanza.Plain.pushOr _ (by decide) (line info.licenseConcluded (by simp))
    apply Stanza.Plain.pushSome _ (by decide) hv.code
    apply Stanza.Plain.push _ (by decide) analyzed
    apply Stanza.Plain.pushOr _ (by decide) (line info.downloadLocation (by simp))
    apply Stanza.Plain.append _ (plain_checksumFields sums (by decide))
    apply Stanza.Plain.pushSome _ (by decide) (line info.id (by simp))
    exact Stanza.plain_nil.pushSome (by decide) (line info.name (by simp))
  · intro f member
    obtain ⟨tag, listed, rfl⟩ := List.mem_map.mp member
    exact ⟨license, hv.licenses tag listed⟩

theorem PackageInfo.Legible.fields {info : PackageInfo} {v : Verification} (h : info.Legible)
    (hv : v.Legible) : (Package.fields info v).Legible "PackageCopyrightText" := by
  obtain ⟨front, plain, same⟩ := Package.plain_fields h.1 hv
  rw [same]
  exact plain.legible_pushTextOr h.2

theorem Package.legible_iff (p : Package) :
    p.Legible ↔ p.OwnLegible ∧ p.packages.Legible ∧ p.dependencies.Legible := by
  rw [Legible, preorder, walk_eq]
  simp only [List.mem_map, List.mem_cons, List.mem_append, Children.Legible]
  constructor
  · intro h
    refine ⟨h p ⟨⟨[], p⟩, .inl rfl, rfl⟩, ?_, ?_⟩
    · intro v member
      exact h _ ⟨v, .inr (.inl member), rfl⟩
    · intro v member
      exact h _ ⟨v, .inr (.inr member), rfl⟩
  · rintro ⟨own, contained, required⟩ q ⟨v, member, rfl⟩
    rcases member with rfl | member | member
    · exact own
    · exact contained v member
    · exact required v member

theorem Children.legible_cons {floor : Option String} {key : String} {above : Above floor key}
    {child : Package} {rest : Children (some key)} (h : (cons key above child rest).Legible) :
    child.Legible ∧ rest.Legible := by
  rw [Legible, walk] at h
  constructor
  · intro q member
    obtain ⟨v, met, rfl⟩ := List.mem_map.mp member
    exact h (v.below child.info.name) (List.mem_append_left _ (List.mem_map_of_mem met))
  · intro v member
    exact h v (List.mem_append_right _ member)

mutual

theorem Package.Legible.outline : (p : Package) → p.Legible → {text : String} →
    p.render.result = .ok text → p.render.state.outline.Legible
  | ⟨info, verification, files, packages, dependencies, options⟩, legible, text, h => by
    obtain ⟨own, inPackages, inDependencies⟩ := (Package.legible_iff _).mp legible
    obtain ⟨v, _, _, prepared, contained, required, -, state⟩ := Package.render_ok h
    have summed := Package.legible_of_verify (fun f owned => (own.2 f owned).1)
      (Package.verify_of_prepare prepared)
    rw [state, Package.outline, Outline.Legible]
    refine ⟨own.1.1 info.name (by simp [PackageInfo.strings]), own.1.fields summed, ?_, ?_⟩
    · intro f member
      obtain ⟨f, owned, rfl⟩ := List.mem_map.mp member
      exact (own.2 f owned).stanza
    · exact Children.Legible.outline packages inPackages contained
        (Children.Legible.outline dependencies inDependencies required trivial)

theorem Children.Legible.outline {floor : Option String} : (c : Children floor) → c.Legible →
    {owner : String} → {r : Relationship} → {text : String} →
      (c.render owner r).result = .ok text → {others : Outlines} → others.Legible →
        ((c.render owner r).state.outline r others).Legible
  | .nil, _, owner, r, text, _, others, behind => by
    rw [Children.render, Children.outline]
    exact behind
  | .cons key above child rest, legible, owner, r, text, h, others, behind => by
    obtain ⟨inChild, inRest⟩ := Children.legible_cons legible
    obtain ⟨_, _, first, more, -, state⟩ := Children.render_ok_cons h
    rw [state, Children.outline, Outlines.Legible]
    exact ⟨Package.Legible.outline child inChild first,
      Children.Legible.outline rest inRest more behind⟩

end

namespace Package

/-- Two legible trees with the same document show the same: packages, files and children in the same
places, with the same names, fields and relationships. -/
theorem outline_eq_of_same_document {p q : Package} {text : String} (hp : p.Legible)
    (hq : q.Legible) (left : p.render.result = .ok text) (right : q.render.result = .ok text) :
    p.render.state.outline = q.render.state.outline := by
  have closes : Closes [] := by
    intro c head
    cases head
  have texts : p.render.state.outline.text.toList ++ [] =
      q.render.state.outline.text.toList ++ [] := by
    rw [p.text_outline_of_render left, q.text_outline_of_render right]
  exact (Outline.split _ _ (hp.outline _ left) (hq.outline _ right) closes closes texts).1

/-- Texts with empty lines, an identifier that reads like a relationship, and data that documents do
not show. -/
theorem outline_eq_of_same_document_with_notices :
    let notice := "A\n\nRelationship: a CONTAINS b\n"
    let inner := ofInfo { name := "b", id := "a CONTAINS b", copyrightText := notice }
    let outer := ofInfo { name := "b", id := "b" }
    let tree (info : PackageInfo) (f : File) (summary : Verification) : Package :=
      ⟨info, summary, ⟨[("f", f)], List.pairwise_singleton ..⟩, .cons "b" trivial inner .nil,
        .cons "b" trivial outer .nil, {}⟩
    let p := tree { name := "root", id := "a" } { id := "f", copyrightText := notice } {}
    let q := tree { name := "root", id := "a", licenseComments := "none\n" }
      { id := "f", copyrightText := notice, fileName := "f.c" } ⟨"stale", ["MIT"]⟩
    p.Legible ∧ q.Legible ∧ (∃ text, p.render.result = .ok text ∧ q.render.result = .ok text) ∧
      p.render.state.outline = q.render.state.outline := by
  intro notice inner outer tree p q
  have hp : p.Legible := by decide +kernel
  have hq : q.Legible := by decide +kernel
  exact ⟨hp, hq, ⟨_, rfl, rfl⟩, outline_eq_of_same_document hp hq rfl rfl⟩

end Package
end BillOfMaterials
