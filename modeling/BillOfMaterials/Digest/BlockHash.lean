/-!
# Iterated block hashes

A hash that folds a compression function over the blocks of a padded message. `digest` reads the
whole message at once; `Progress` takes it in pieces of any size, holding back an unfinished block.
Main statement: absorbing a concatenation is absorbing its parts in turn, so both give one digest.
-/
namespace BillOfMaterials.Digest

/-- The parts of an iterated hash. The bit length of the message closes the padding as a big-endian
number of `lengthSize` bytes. -/
structure BlockHash (σ : Type) where
  blockSize : Nat
  blockSize_pos : 0 < blockSize := by decide
  lengthSize : Nat
  initial : σ
  compress : σ → List UInt8 → σ
  output : σ → List UInt8

/-- The lowest `size` bytes of `n`, the highest of them first. -/
def bigEndian (size n : Nat) : List UInt8 :=
  (List.range size).map fun i => UInt8.ofNat (n >>> (8 * (size - 1 - i)))

namespace BlockHash

variable {σ : Type} (h : BlockHash σ)

/-- Compresses every complete block and returns the bytes left over, fewer than a block. -/
def absorb (state : σ) (bytes : List UInt8) : σ × List UInt8 :=
  if (bytes.drop (h.blockSize - 1)).isEmpty then (state, bytes)
  else absorb (h.compress state (bytes.take h.blockSize)) (bytes.drop h.blockSize)
termination_by bytes.length
decreasing_by
  have size_pos := h.blockSize_pos
  cases bytes with
  | nil => simp_all
  | cons b rest => simp only [List.length_drop, List.length_cons]; omega

theorem absorb_of_short {state : σ} {bytes : List UInt8} (short : bytes.length < h.blockSize) :
    h.absorb state bytes = (state, bytes) := by
  rw [absorb, if_pos]
  simp only [List.isEmpty_iff, List.drop_eq_nil_iff]
  omega

theorem absorb_of_le {state : σ} {bytes : List UInt8} (long : h.blockSize ≤ bytes.length) :
    h.absorb state bytes =
      h.absorb (h.compress state (bytes.take h.blockSize)) (bytes.drop h.blockSize) := by
  have size_pos := h.blockSize_pos
  rw [absorb, if_neg]
  simp only [List.isEmpty_iff, List.drop_eq_nil_iff]
  omega

theorem absorb_append (state : σ) (front back : List UInt8) :
    h.absorb state (front ++ back) =
      h.absorb (h.absorb state front).1 ((h.absorb state front).2 ++ back) := by
  by_cases long : h.blockSize ≤ front.length
  · have size_pos := h.blockSize_pos
    rw [h.absorb_of_le (by simp; omega), h.absorb_of_le long, List.take_append_of_le_length long,
      List.drop_append_of_le_length long]
    exact absorb_append _ _ _
  · rw [h.absorb_of_short (Nat.lt_of_not_le long)]
termination_by front.length
decreasing_by
  simp only [List.length_drop]
  omega

/-- What follows a message of `length` bytes: a one bit, zeros up to the end of a block less the
length field, and the length in bits. -/
def padding (length : Nat) : List UInt8 :=
  let zeros := (h.blockSize - (length + 1 + h.lengthSize) % h.blockSize) % h.blockSize
  0x80 :: List.replicate zeros 0 ++ bigEndian h.lengthSize (8 * length)

def digest (message : List UInt8) : List UInt8 :=
  h.output (h.absorb h.initial (message ++ h.padding message.length)).1

/-- A hash in progress: the state after all complete blocks, the bytes held back and the number of
bytes taken in. -/
structure Progress (h : BlockHash σ) where
  state : σ
  held : List UInt8
  length : Nat

namespace Progress

variable {h}

def start : Progress h := ⟨h.initial, [], 0⟩

def update (p : Progress h) (chunk : List UInt8) : Progress h :=
  let (state, held) := h.absorb p.state (p.held ++ chunk)
  ⟨state, held, p.length + chunk.length⟩

def finish (p : Progress h) : List UInt8 :=
  h.output (h.absorb p.state (p.held ++ h.padding p.length)).1

end Progress

variable {h}

theorem Progress.update_update (p : Progress h) (front back : List UInt8) :
    (p.update front).update back = p.update (front ++ back) := by
  simp only [Progress.update, Progress.mk.injEq, List.length_append, ← List.append_assoc,
    h.absorb_append p.state (p.held ++ front) back, true_and]
  exact Nat.add_assoc ..

theorem Progress.finish_update_start (message : List UInt8) :
    ((Progress.start : Progress h).update message).finish = h.digest message := by
  simp only [Progress.finish, Progress.update, Progress.start, digest, List.nil_append,
    Nat.zero_add, h.absorb_append h.initial message]

end BlockHash
end BillOfMaterials.Digest
