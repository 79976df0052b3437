import BillOfMaterials.Proofs.Source.Checksums
import BillOfMaterials.Proofs.Text.Utf8
import BillOfMaterials.Proofs.Verification.AnyOrder

/-!
# Codes tell files apart

A verification code is the digest of checksums put together without anything between them. As all
checksums have one length and come in ascending order, the text that is hashed tells them all, with
their repetitions: two sets of files share a code over equal checksums or over a collision.
-/
namespace BillOfMaterials

/-- The file has a SHA-1 checksum, and that has the form of a digest. -/
def File.Digested (f : File) : Prop :=
  ∃ sum, f.checksum? .sha1 = some sum ∧ Algorithm.sha1.IsDigest sum

namespace Verification

variable {files others : List File}

/-- Texts of one length are told from what they give when put together. -/
theorem join_inj_of_length {n : Nat} (pos : 0 < n) {texts texts' : List String}
    (each : ∀ s ∈ texts, s.length = n) (each' : ∀ s ∈ texts', s.length = n) :
    String.join texts = String.join texts' ↔ texts = texts' := by
  refine ⟨fun joined => ?_, congrArg String.join⟩
  have nonempty {s : String} {rest : List String} (length : s.length = n) :
      String.join (s :: rest) ≠ String.join [] := by
    intro empty
    have size := congrArg String.length empty
    rw [String.join_cons, String.length_append, length, String.join_nil, String.length_empty] at size
    omega
  induction texts generalizing texts' with
  | nil =>
    cases texts' with
    | nil => rfl
    | cons s' texts' => exact absurd joined.symm (nonempty (each' s' (List.mem_cons_self ..)))
  | cons s texts ih =>
    have length := each s (List.mem_cons_self ..)
    cases texts' with
    | nil => exact absurd joined (nonempty length)
    | cons s' texts' =>
      -- both first texts end at the same place
      have even : s.toList.length = s'.toList.length := by
        rw [String.length_toList, String.length_toList, length, each' s' (List.mem_cons_self ..)]
      have chars := congrArg String.toList joined
      rw [String.join_cons, String.join_cons, String.toList_append, String.toList_append] at chars
      obtain ⟨here, behind⟩ := List.append_inj chars even
      rw [String.toList_inj] at here behind
      rw [here, ih (fun t member => each t (List.mem_cons_of_mem _ member))
        (fun t member => each' t (List.mem_cons_of_mem _ member)) behind]

theorem codeKey_inj {own own' : List String} (digests : ∀ sum ∈ own, Algorithm.sha1.IsDigest sum)
    (digests' : ∀ sum ∈ own', Algorithm.sha1.IsDigest sum) :
    codeKey own = codeKey own' ↔ own.Perm own' := by
  refine ⟨fun same => ?_, codeKey_congr⟩
  have length {own : List String} (digests : ∀ sum ∈ own, Algorithm.sha1.IsDigest sum) :
      ∀ sum ∈ sorted own, sum.length = 40 :=
    fun sum member => (digests sum (List.mem_mergeSort.mp member)).length
  have ascending : sorted own = sorted own' :=
    (join_inj_of_length (by decide) (length digests) (length digests')).mp same
  calc
    own.Perm (sorted own) := (List.mergeSort_perm ..).symm
    _ = sorted own' := ascending
    (sorted own').Perm own' := List.mergeSort_perm ..

/-- The bytes whose digest is the code. -/
def hashed (files : List File) : List UInt8 := Text.Utf8.encode (codeKey (sums files))

theorem isDigest_of_mem_sums (digested : ∀ f ∈ files, f.Digested) {sum : String}
    (member : sum ∈ sums files) : Algorithm.sha1.IsDigest sum := by
  obtain ⟨f, listed, own⟩ := List.mem_filterMap.mp member
  obtain ⟨digest, found, form⟩ := digested f listed
  rw [own] at found
  exact Option.some.inj found ▸ form

theorem ofFiles_of_digested (nonempty : files ≠ []) (digested : ∀ f ∈ files, f.Digested) :
    ofFiles files = .ok ⟨Algorithm.sha1.hash (hashed files), listedLicenses files⟩ := by
  refine ofFiles_eq_ok_iff_summable.mpr ⟨⟨nonempty, fun f member missing => ?_⟩, rfl⟩
  obtain ⟨sum, own, -⟩ := digested f member
  rw [missing] at own
  cases own

theorem hashed_inj (digested : ∀ f ∈ files, f.Digested) (digested' : ∀ f ∈ others, f.Digested) :
    hashed files = hashed others ↔ (sums files).Perm (sums others) := by
  rw [hashed, hashed, Text.Utf8.encode_inj]
  exact codeKey_inj (fun _ => isDigest_of_mem_sums digested)
    fun _ => isDigest_of_mem_sums digested'

/-- SHA-1 digests, as hashing and reading source files give them, are told from the bytes that are
hashed for the code, each as often as it occurs. Files with other digests have the same code only if
these bytes collide. -/
theorem hashed_tells_digests :
    (∀ bytes, Algorithm.sha1.IsDigest (Algorithm.sha1.hash bytes)) ∧
    (∀ (f : File) (fs : FileSystem) (path : Path),
      (f.readSource fs path).result = .ok () → (f.readSource fs path).state.Digested) ∧
    ∀ files others : List File, files ≠ [] → others ≠ [] →
      (∀ f ∈ files, f.Digested) → (∀ f ∈ others, f.Digested) →
      ∃ v v', ofFiles files = .ok v ∧ ofFiles others = .ok v' ∧
        v.code = Algorithm.sha1.hash (hashed files) ∧
        v'.code = Algorithm.sha1.hash (hashed others) ∧
        (hashed files = hashed others ↔ (sums files).Perm (sums others)) ∧
        (v.code = v'.code →
          (sums files).Perm (sums others) ∨ Algorithm.sha1.Collide (hashed files) (hashed others)) := by
  refine ⟨Algorithm.sha1.isDigest_hash, fun f fs path done => f.checksum?_readSource done .sha1, ?_⟩
  intro files others nonempty nonempty' digested digested'
  have tells := hashed_inj digested digested'
  refine ⟨_, _, ofFiles_of_digested nonempty digested, ofFiles_of_digested nonempty' digested',
    rfl, rfl, tells, fun same => ?_⟩
  by_cases equal : hashed files = hashed others
  · exact .inl (tells.mp equal)
  · exact .inr ⟨equal, same⟩

/-- A digest that occurs twice is hashed twice. -/
theorem hashed_tells_digests_repeated :
    let file (name : String) : File := (File.named name).withChecksum .sha1 (Algorithm.sha1.hash [])
    let once := [file "a"]
    let twice := [file "a", file "b"]
    (∀ f ∈ once, f.Digested) ∧ (∀ f ∈ twice, f.Digested) ∧ hashed once ≠ hashed twice := by
  intro file once twice
  have digested (name : String) : (file name).Digested := ⟨_, rfl, Algorithm.sha1.isDigest_hash []⟩
  have digestedOnce : ∀ f ∈ once, f.Digested := by simp [once, digested]
  have digestedTwice : ∀ f ∈ twice, f.Digested := by simp [twice, digested]
  refine ⟨digestedOnce, digestedTwice, fun same => ?_⟩
  obtain ⟨_, _, -, -, -, -, tells, -⟩ := hashed_tells_digests.2.2 once twice (by simp [once])
    (by simp [twice]) digestedOnce digestedTwice
  have counts := (tells.mp same).length_eq
  cases counts

end Verification
end BillOfMaterials
