import BillOfMaterials.Digest.BlockHash

/-!
# SHA-256 and SHA-512

Two members of the SHA-2 family of FIPS 180-4. They share one compression function over words of
32 or 64 bits and differ in the rotation amounts, the round constants and the initial state.
-/
namespace BillOfMaterials.Digest.Sha2

/-- The word arithmetic of one member. -/
class Word (α : Type) extends Add α, XorOp α, AndOp α, Complement α where
  size : Nat
  rotateRight : α → Nat → α
  shiftRight : α → Nat → α
  ofBytes : List UInt8 → α
  toBytes : α → List UInt8

instance : Word UInt32 where
  size := 4
  rotateRight x n := (x >>> n.toUInt32) ||| (x <<< (32 - n.toUInt32))
  shiftRight x n := x >>> n.toUInt32
  ofBytes bytes := bytes.foldl (fun w b => (w <<< 8) ||| b.toUInt32) 0
  toBytes x := bigEndian 4 x.toNat

instance : Word UInt64 where
  size := 8
  rotateRight x n := (x >>> n.toUInt64) ||| (x <<< (64 - n.toUInt64))
  shiftRight x n := x >>> n.toUInt64
  ofBytes bytes := bytes.foldl (fun w b => (w <<< 8) ||| b.toUInt64) 0
  toBytes x := bigEndian 8 x.toNat

/-- Three amounts: of rotations, or of two rotations and a shift. -/
structure Amounts where
  first : Nat
  second : Nat
  third : Nat

structure Parameters (α : Type) where
  sum0 : Amounts
  sum1 : Amounts
  expand0 : Amounts
  expand1 : Amounts
  constants : List α

structure State (α : Type) where
  a : α
  b : α
  c : α
  d : α
  e : α
  f : α
  g : α
  h : α

variable {α : Type} [Word α]

@[specialize] def rotations (r : Amounts) (x : α) : α :=
  Word.rotateRight x r.first ^^^ Word.rotateRight x r.second ^^^ Word.rotateRight x r.third

@[specialize] def rotationsAndShift (r : Amounts) (x : α) : α :=
  Word.rotateRight x r.first ^^^ Word.rotateRight x r.second ^^^ Word.shiftRight x r.third

/-- The sixteen words of a block, in order. -/
@[specialize] def words (block : List UInt8) : Array α :=
  (List.range 16).toArray.map fun i =>
    Word.ofBytes ((block.drop (Word.size α * i)).take (Word.size α))

/-- One word for each round constant. -/
@[specialize] def schedule (p : Parameters α) (block : List UInt8) : Array α :=
  let zero : α := Word.ofBytes []
  (List.range (p.constants.length - 16)).foldl (fun w i =>
    w.push (rotationsAndShift p.expand1 (w.getD (i + 14) zero) + w.getD (i + 9) zero
      + rotationsAndShift p.expand0 (w.getD (i + 1) zero) + w.getD i zero)) (words block)

@[specialize] def round (p : Parameters α) (s : State α) (input : α × α) : State α :=
  let choice := (s.e &&& s.f) ^^^ (~~~s.e &&& s.g)
  let majority := (s.a &&& s.b) ^^^ (s.a &&& s.c) ^^^ (s.b &&& s.c)
  let t1 := s.h + rotations p.sum1 s.e + choice + input.1 + input.2
  let t2 := rotations p.sum0 s.a + majority
  ⟨t1 + t2, s.a, s.b, s.c, s.d + t1, s.e, s.f, s.g⟩

@[specialize] def compress (p : Parameters α) (s : State α) (block : List UInt8) : State α :=
  let r := (p.constants.zip (schedule p block).toList).foldl (round p) s
  ⟨s.a + r.a, s.b + r.b, s.c + r.c, s.d + r.d, s.e + r.e, s.f + r.f, s.g + r.g, s.h + r.h⟩

def output (s : State α) : List UInt8 :=
  [s.a, s.b, s.c, s.d, s.e, s.f, s.g, s.h].flatMap Word.toBytes

def parameters256 : Parameters UInt32 where
  sum0 := ⟨2, 13, 22⟩
  sum1 := ⟨6, 11, 25⟩
  expand0 := ⟨7, 18, 3⟩
  expand1 := ⟨17, 19, 10⟩
  constants := [
    0x428a2f98, 0x71374491, 0xb5c0fbcf, 0xe9b5dba5, 0x3956c25b, 0x59f111f1, 0x923f82a4, 0xab1c5ed5,
    0xd807aa98, 0x12835b01, 0x243185be, 0x550c7dc3, 0x72be5d74, 0x80deb1fe, 0x9bdc06a7, 0xc19bf174,
    0xe49b69c1, 0xefbe4786, 0x0fc19dc6, 0x240ca1cc, 0x2de92c6f, 0x4a7484aa, 0x5cb0a9dc, 0x76f988da,
    0x983e5152, 0xa831c66d, 0xb00327c8, 0xbf597fc7, 0xc6e00bf3, 0xd5a79147, 0x06ca6351, 0x14292967,
    0x27b70a85, 0x2e1b2138, 0x4d2c6dfc, 0x53380d13, 0x650a7354, 0x766a0abb, 0x81c2c92e, 0x92722c85,
    0xa2bfe8a1, 0xa81a664b, 0xc24b8b70, 0xc76c51a3, 0xd192e819, 0xd6990624, 0xf40e3585, 0x106aa070,
    0x19a4c116, 0x1e376c08, 0x2748774c, 0x34b0bcb5, 0x391c0cb3, 0x4ed8aa4a, 0x5b9cca4f, 0x682e6ff3,
    0x748f82ee, 0x78a5636f, 0x84c87814, 0x8cc70208, 0x90befffa, 0xa4506ceb, 0xbef9a3f7, 0xc67178f2]

def parameters512 : Parameters UInt64 where
  sum0 := ⟨28, 34, 39⟩
  sum1 := ⟨14, 18, 41⟩
  expand0 := ⟨1, 8, 7⟩
  expand1 := ⟨19, 61, 6⟩
  constants := [
    0x428a2f98d728ae22, 0x7137449123ef65cd, 0xb5c0fbcfec4d3b2f, 0xe9b5dba58189dbbc,
    0x3956c25bf348b538, 0x59f111f1b605d019, 0x923f82a4af194f9b, 0xab1c5ed5da6d8118,
    0xd807aa98a3030242, 0x12835b0145706fbe, 0x243185be4ee4b28c, 0x550c7dc3d5ffb4e2,
    0x72be5d74f27b896f, 0x80deb1fe3b1696b1, 0x9bdc06a725c71235, 0xc19bf174cf692694,
    0xe49b69c19ef14ad2, 0xefbe4786384f25e3, 0x0fc19dc68b8cd5b5, 0x240ca1cc77ac9c65,
    0x2de92c6f592b0275, 0x4a7484aa6ea6e483, 0x5cb0a9dcbd41fbd4, 0x76f988da831153b5,
    0x983e5152ee66dfab, 0xa831c66d2db43210, 0xb00327c898fb213f, 0xbf597fc7beef0ee4,
    0xc6e00bf33da88fc2, 0xd5a79147930aa725, 0x06ca6351e003826f, 0x142929670a0e6e70,
    0x27b70a8546d22ffc, 0x2e1b21385c26c926, 0x4d2c6dfc5ac42aed, 0x53380d139d95b3df,
    0x650a73548baf63de, 0x766a0abb3c77b2a8, 0x81c2c92e47edaee6, 0x92722c851482353b,
    0xa2bfe8a14cf10364, 0xa81a664bbc423001, 0xc24b8b70d0f89791, 0xc76c51a30654be30,
    0xd192e819d6ef5218, 0xd69906245565a910, 0xf40e35855771202a, 0x106aa07032bbd1b8,
    0x19a4c116b8d2d0c8, 0x1e376c085141ab53, 0x2748774cdf8eeb99, 0x34b0bcb5e19b48a8,
    0x391c0cb3c5c95a63, 0x4ed8aa4ae3418acb, 0x5b9cca4f7763e373, 0x682e6ff3d6b2b8a3,
    0x748f82ee5defb2fc, 0x78a5636f43172f60, 0x84c87814a1f0ab72, 0x8cc702081a6439ec,
    0x90befffa23631e28, 0xa4506cebde82bde9, 0xbef9a3f7b2c67915, 0xc67178f2e372532b,
    0xca273eceea26619c, 0xd186b8c721c0c207, 0xeada7dd6cde0eb1e, 0xf57d4f7fee6ed178,
    0x06f067aa72176fba, 0x0a637dc5a2c898a6, 0x113f9804bef90dae, 0x1b710b35131c471b,
    0x28db77f523047d84, 0x32caab7b40c72493, 0x3c9ebe0a15c9bebc, 0x431d67c49c100d4c,
    0x4cc5d4becb3e42b6, 0x597f299cfc657e2a, 0x5fcb6fab3ad6faec, 0x6c44198c4a475817]

end Sha2

def sha256 : BlockHash (Sha2.State UInt32) where
  blockSize := 16 * 4
  lengthSize := 8
  initial := ⟨0x6a09e667, 0xbb67ae85, 0x3c6ef372, 0xa54ff53a, 0x510e527f, 0x9b05688c, 0x1f83d9ab,
    0x5be0cd19⟩
  compress := Sha2.compress Sha2.parameters256
  output := Sha2.output

def sha512 : BlockHash (Sha2.State UInt64) where
  blockSize := 16 * 8
  lengthSize := 16
  initial := ⟨0x6a09e667f3bcc908, 0xbb67ae8584caa73b, 0x3c6ef372fe94f82b, 0xa54ff53a5f1d36f1,
    0x510e527fade682d1, 0x9b05688c2b3e6c1f, 0x1f83d9abfb41bd6b, 0x5be0cd19137e2179⟩
  compress := Sha2.compress Sha2.parameters512
  output := Sha2.output

end BillOfMaterials.Digest
