import BillOfMaterials.Package.Store
import BillOfMaterials.Proofs.Digest.Form
import BillOfMaterials.Proofs.Text.Utf8

/-!
# Files told from what is hashed for them

The name of the package, a colon and the name of the file are hashed to identify a file. As names
may hold colons themselves, one text can be cut at several of them: files of packages named
differently can share what is hashed, and then share their identifier. All other files share one
only through a collision.
-/
namespace BillOfMaterials.Identifier

section Cuts

variable {α : Type} {m : α} {a b x y : List α}

/-- A list that is cut at a mark twice is cut at one place or at two. -/
theorem append_mark_eq_iff :
    a ++ m :: x = b ++ m :: y ↔
      (a = b ∧ x = y) ∨ (∃ c, b = a ++ m :: c ∧ x = c ++ m :: y) ∨
        ∃ c, a = b ++ m :: c ∧ y = c ++ m :: x := by
  rw [List.append_eq_append_iff]
  constructor
  · rintro (⟨c, rfl, behind⟩ | ⟨c, rfl, behind⟩)
    · cases c with
      | nil => exact .inl ⟨by simp, by simpa using behind⟩
      | cons d c =>
        obtain ⟨rfl, rfl⟩ := List.cons.inj behind
        exact .inr (.inl ⟨c, rfl, rfl⟩)
    · cases c with
      | nil => exact .inl ⟨by simp, by simpa using behind.symm⟩
      | cons d c =>
        obtain ⟨rfl, rfl⟩ := List.cons.inj behind
        exact .inr (.inr ⟨c, rfl, rfl⟩)
  · rintro (⟨rfl, rfl⟩ | ⟨c, rfl, rfl⟩ | ⟨c, rfl, rfl⟩)
    · exact .inl ⟨[], by simp⟩
    · exact .inl ⟨m :: c, by simp⟩
    · exact .inr ⟨m :: c, by simp⟩

end Cuts

variable {package file package' file' : String}

/-- The bytes whose digest identifies a file. -/
def hashed (package file : String) : List UInt8 := Text.Utf8.encode (fileKey package file)

/-- Both pairs of names are cut from one text, the second at a later colon. -/
def CutLater (package file package' file' : String) : Prop :=
  ∃ middle, package' = package ++ ":" ++ middle ∧ file = middle ++ ":" ++ file'

/-- Both pairs of names are cut from one text. -/
def OneText (package file package' file' : String) : Prop :=
  (package = package' ∧ file = file') ∨ CutLater package file package' file' ∨
    CutLater package' file' package file

theorem toList_fileKey (package file : String) :
    (fileKey package file).toList = package.toList ++ ':' :: file.toList := by
  simp [fileKey]

theorem cutLater_iff :
    CutLater package file package' file' ↔ ∃ c, package'.toList = package.toList ++ ':' :: c ∧
      file.toList = c ++ ':' :: file'.toList := by
  constructor
  · rintro ⟨middle, rfl, rfl⟩
    exact ⟨middle.toList, by simp, by simp⟩
  · rintro ⟨c, later, earlier⟩
    refine ⟨String.ofList c, ?_, ?_⟩
    · rw [← String.toList_inj, later]
      simp
    · rw [← String.toList_inj, earlier]
      simp

theorem fileKey_eq_iff :
    fileKey package file = fileKey package' file' ↔ OneText package file package' file' := by
  rw [← String.toList_inj, toList_fileKey, toList_fileKey, append_mark_eq_iff, OneText,
    cutLater_iff, cutLater_iff, String.toList_inj, String.toList_inj]

theorem hashed_eq_iff :
    hashed package file = hashed package' file' ↔ OneText package file package' file' := by
  rw [hashed, hashed, Text.Utf8.encode_inj, fileKey_eq_iff]

/-- The later cut needs a colon in the longer name of a package and in that of a file. -/
theorem CutLater.colon_mem (cut : CutLater package file package' file') :
    ':' ∈ package'.toList ∧ ':' ∈ file.toList := by
  obtain ⟨c, later, earlier⟩ := cutLater_iff.mp cut
  simp [later, earlier]

theorem not_cutLater_self : ¬ CutLater package file package file' := by
  intro cut
  obtain ⟨c, later, -⟩ := cutLater_iff.mp cut
  have lengths := congrArg List.length later
  rw [List.length_append, List.length_cons] at lengths
  omega

/-- Where names can be cut in one way only. -/
def OneCut (package file package' file' : String) : Prop :=
  package = package' ∨ (':' ∉ package.toList ∧ ':' ∉ package'.toList) ∨
    (':' ∉ file.toList ∧ ':' ∉ file'.toList)

theorem OneCut.eq_of_oneText (cut : OneCut package file package' file')
    (text : OneText package file package' file') : package = package' ∧ file = file' := by
  rcases text with same | later | earlier
  · exact same
  · obtain ⟨inPackage, inFile⟩ := later.colon_mem
    rcases cut with rfl | plain | plain
    · exact absurd later not_cutLater_self
    · exact absurd inPackage plain.2
    · exact absurd inFile plain.1
  · obtain ⟨inPackage, inFile⟩ := earlier.colon_mem
    rcases cut with rfl | plain | plain
    · exact absurd earlier not_cutLater_self
    · exact absurd inPackage plain.1
    · exact absurd inFile plain.2

theorem ofFile_eq_ok_iff {id : String} :
    ofFile package file = .ok id ↔ package ≠ "" ∧ file ≠ "" ∧
      id = "File-" ++ Algorithm.sha1.hash (hashed package file) := by
  rw [ofFile, hashed]
  by_cases named_file : file = "" <;> by_cases named_package : package = "" <;>
    simp [named_file, named_package, Algorithm.hashText, fileKey, @eq_comm _ id]

theorem ofFile_of_named (named_package : package ≠ "") (named_file : file ≠ "") :
    ofFile package file = .ok ("File-" ++ Algorithm.sha1.hash (hashed package file)) :=
  ofFile_eq_ok_iff.mpr ⟨named_package, named_file, rfl⟩

theorem addFile_result_of_unnamed (p : Package) {f : File} (unnamed : f.id = "") :
    (p.addFile f).result = ofFile p.name f.name := by
  rw [Package.addFile, Package.fileId, unnamed]
  cases ofFile p.name f.name <;> rfl

/-- Files with names of their own, in packages with names, are told from what is hashed for them
unless their names are cut from one text at different colons, which takes packages of different
names and a colon in the names of a package and of a file. Otherwise they have one identifier only
if what is hashed collides. -/
theorem files_told_up_to_cut {p p' : Package} {f f' : File} (named_package : p.name ≠ "")
    (named_file : f.name ≠ "") (named_package' : p'.name ≠ "") (named_file' : f'.name ≠ "") :
    ofFile p.name f.name = .ok ("File-" ++ Algorithm.sha1.hash (hashed p.name f.name)) ∧
    (hashed p.name f.name = hashed p'.name f'.name ↔ OneText p.name f.name p'.name f'.name) ∧
    (OneCut p.name f.name p'.name f'.name →
      OneText p.name f.name p'.name f'.name → p.name = p'.name ∧ f.name = f'.name) ∧
    (f.id = "" → f'.id = "" → (p.addFile f).result = (p'.addFile f').result →
      OneText p.name f.name p'.name f'.name ∨
        Algorithm.sha1.Collide (hashed p.name f.name) (hashed p'.name f'.name)) := by
  refine ⟨ofFile_of_named named_package named_file, hashed_eq_iff, OneCut.eq_of_oneText, ?_⟩
  intro unnamed unnamed' same
  rw [addFile_result_of_unnamed p unnamed, addFile_result_of_unnamed p' unnamed',
    ofFile_of_named named_package named_file, ofFile_of_named named_package' named_file',
    Except.ok.injEq, String.append_right_inj] at same
  by_cases one : hashed p.name f.name = hashed p'.name f'.name
  · exact .inl (hashed_eq_iff.mp one)
  · exact .inr ⟨one, same⟩

/-- A colon in the names of packages alone does no harm. -/
theorem files_told_up_to_cut_of_tagged_image :
    let p := Package.named "k8s.gcr.io/kube-apiserver"
    let p' := Package.named "k8s.gcr.io/kube-apiserver:v1.21"
    let f := File.named "bin/app"
    (p.name ≠ "" ∧ f.name ≠ "" ∧ p'.name ≠ "") ∧ hashed p.name f.name ≠ hashed p'.name f.name ∧
      ((p.addFile f).result = (p'.addFile f).result →
        Algorithm.sha1.Collide (hashed p.name f.name) (hashed p'.name f.name)) := by
  intro p p' f
  have named : p.name ≠ "" ∧ f.name ≠ "" ∧ p'.name ≠ "" := by decide
  obtain ⟨-, tells, cut, collide⟩ := files_told_up_to_cut named.1 named.2.1 named.2.2 named.2.1
  have apart : ¬ OneText p.name f.name p'.name f.name := by
    intro text
    have same := (cut (.inr (.inr (by decide))) text).1
    exact absurd same (by decide)
  exact ⟨named, fun same => apart (tells.mp same), fun same =>
    (collide rfl rfl same).resolve_left apart⟩

/-- Files of two images, one named by the other's name and a tag, share what is hashed. -/
theorem files_of_two_images_share_key :
    ¬ ∀ package file package' file' : String, package ≠ "" → file ≠ "" → package' ≠ "" →
      file' ≠ "" → (package, file) ≠ (package', file') →
        hashed package file ≠ hashed package' file' := by
  intro apart
  have cut : CutLater "k8s.gcr.io/kube-apiserver" "v1.21:bin/app"
      "k8s.gcr.io/kube-apiserver:v1.21" "bin/app" := ⟨"v1.21", by decide, by decide⟩
  apply apart _ _ _ _ _ _ _ _ _ (hashed_eq_iff.mpr (.inr (.inl cut))) <;> decide

end BillOfMaterials.Identifier
