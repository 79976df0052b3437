import BillOfMaterials.Digest.Algorithm

/-!
# The form of digests

A digest is written in lowercase hexadecimal digits, as many as its algorithm has. Byte strings that
differ and still have one digest collide.
-/
namespace BillOfMaterials

namespace Text.Hex

/-- A lowercase hexadecimal digit. -/
def IsDigit (c : Char) : Prop := ('0' ≤ c ∧ c ≤ '9') ∨ ('a' ≤ c ∧ c ≤ 'f')

instance (c : Char) : Decidable (IsDigit c) := inferInstanceAs (Decidable (_ ∨ _))

theorem isDigit_digit : ∀ n < 16, IsDigit (digit n) := by decide

theorem isDigit_of_mem_encode {bytes : List UInt8} {c : Char} (member : c ∈ (encode bytes).toList) :
    IsDigit c := by
  rw [encode, String.toList_ofList, List.mem_flatMap] at member
  obtain ⟨b, -, member⟩ := member
  have bound := b.toNat_lt
  rw [ofByte, List.mem_cons, List.mem_singleton] at member
  rcases member with rfl | rfl
  · exact isDigit_digit _ (by omega)
  · exact isDigit_digit _ (by omega)

theorem length_encode (bytes : List UInt8) : (encode bytes).length = 2 * bytes.length := by
  rw [encode, String.length_ofList]
  induction bytes with
  | nil => rfl
  | cons b rest ih =>
    rw [List.flatMap_cons, List.length_append, ih, ofByte]
    simp
    omega

end Text.Hex

namespace Algorithm

variable {a : Algorithm}

/-- How many digits a digest has. -/
def width : Algorithm → Nat
  | .sha1 => 40
  | .sha256 => 64
  | .sha512 => 128

/-- The text has the form of a digest. -/
structure IsDigest (a : Algorithm) (sum : String) : Prop where
  length : sum.length = a.width
  digits : ∀ c ∈ sum.toList, Text.Hex.IsDigit c

theorem IsDigest.ne_empty {sum : String} (digest : a.IsDigest sum) : sum ≠ "" := by
  rintro rfl
  have length := digest.length
  cases a <;> cases length

theorem isDigest_output (state : a.State) :
    a.IsDigest (Text.Hex.encode (a.blockHash.output state)) where
  length := by
    rw [Text.Hex.length_encode]
    cases a <;> simp [blockHash, Digest.sha1, Digest.sha256, Digest.sha512, Digest.Sha1.output,
      Digest.Sha2.output, Digest.Sha2.Word.toBytes, Digest.bigEndian, width]
  digits _ := Text.Hex.isDigit_of_mem_encode

theorem isDigest_hash (a : Algorithm) (bytes : List UInt8) : a.IsDigest (a.hash bytes) :=
  isDigest_output _

/-- The digests that the standard gives for its example of one block. -/
example :
    Algorithm.sha1.hashText "abc" = "a9993e364706816aba3e25717850c26c9cd0d89d" ∧
    Algorithm.sha256.hashText "abc" =
      "ba7816bf8f01cfea414140de5dae2223b00361a396177a9cb410ff61f20015ad" ∧
    Algorithm.sha512.hashText "abc" =
      "ddaf35a193617abacc417349ae20413112e6fa4e89a97ea20a9eeee64b55d39a" ++
        "2192992a274fc1a836ba3c23a3feebbd454d4423643ce80e2a9ac94fa54ca49f" := by
  decide +kernel

/-- Two byte strings that the algorithm does not tell apart. -/
def Collide (a : Algorithm) (bytes bytes' : List UInt8) : Prop :=
  bytes ≠ bytes' ∧ a.hash bytes = a.hash bytes'

end Algorithm
end BillOfMaterials
