import BillOfMaterials.Source

/-!
# Digests of streams

A digest does not depend on the pieces in which its bytes come, wherever these end within a buffer
or a block. A reader that comes to its end gives the digest of all it has handed out. A read that
fails gives its error, and none of the reads behind it is made.
-/
namespace BillOfMaterials

namespace Hasher

variable {a : Algorithm}

theorem update_update (h : Hasher a) (front back : List UInt8) :
    (h.update front).update back = h.update (front ++ back) := by
  rw [update, update, update, h.progress.update_update]

theorem update_start_nil : (start : Hasher a).update [] = start := by
  have short : ([] : List UInt8).length < a.blockHash.blockSize := a.blockHash.blockSize_pos
  simp [update, start, Digest.BlockHash.Progress.update, Digest.BlockHash.Progress.start,
    a.blockHash.absorb_of_short short]

theorem finish_update_start (bytes : List UInt8) :
    ((start : Hasher a).update bytes).finish = a.hash bytes := by
  rw [finish, update, start, Digest.BlockHash.Progress.finish_update_start, Algorithm.hash]

theorem foldl_update (h : Hasher a) (bytes : List UInt8) (chunks : List (List UInt8)) :
    chunks.foldl update (h.update bytes) = h.update (bytes ++ chunks.flatten) := by
  induction chunks generalizing bytes with
  | nil => simp
  | cons chunk chunks ih =>
    rw [List.foldl_cons, update_update, ih, List.flatten_cons, List.append_assoc]

theorem finish_foldl_update (chunks : List (List UInt8)) :
    (chunks.foldl update (start : Hasher a)).finish = a.hash chunks.flatten := by
  rw [← update_start_nil, foldl_update, List.nil_append, finish_update_start]

theorem finishReading_data (h : Hasher a) {chunk : List UInt8} (some_bytes : chunk ≠ [])
    (more : List Read) :
    h.finishReading (.data chunk :: more) = (h.update chunk).finishReading more := by
  rw [finishReading, if_neg]
  rwa [List.isEmpty_iff]

/-- Pieces that a reader hands out one after the other are taken in. -/
theorem finishReading_append (h : Hasher a) {chunks : List (List UInt8)}
    (some_bytes : [] ∉ chunks) (more : List Read) :
    h.finishReading (chunks.map .data ++ more) = (chunks.foldl update h).finishReading more := by
  induction chunks generalizing h with
  | nil => rfl
  | cons chunk chunks ih =>
    rw [List.mem_cons, not_or] at some_bytes
    rw [List.map_cons, List.cons_append, h.finishReading_data (Ne.symm some_bytes.1),
      ih _ some_bytes.2, List.foldl_cons]

end Hasher

namespace Read

/-- How reading comes to an end: the pieces handed out before, whether a read failed, the reads that
are not made, and the reads as a whole. -/
inductive Ends (chunks : List (List UInt8)) :
    Except AccessError Unit → List Read → List Read → Prop
  /-- All reads hand out something. -/
  | exhausted : Ends chunks (.ok ()) [] (chunks.map .data)
  | nothing {unread : List Read} :
      Ends chunks (.ok ()) unread (chunks.map .data ++ .data [] :: unread)
  | failed {e : AccessError} {unread : List Read} :
      Ends chunks (.error e) unread (chunks.map .data ++ .failure e :: unread)

theorem Ends.cons {chunks : List (List UInt8)} {outcome : Except AccessError Unit}
    {unread reads : List Read} (ends : Ends chunks outcome unread reads) (chunk : List UInt8) :
    Ends (chunk :: chunks) outcome unread (.data chunk :: reads) := by
  cases ends with
  | exhausted => exact .exhausted
  | nothing => exact .nothing
  | failed => exact .failed

/-- Every reader ends in one of these ways. -/
theorem exists_ends (reads : List Read) :
    ∃ chunks outcome unread, [] ∉ chunks ∧ Ends chunks outcome unread reads := by
  induction reads with
  | nil => exact ⟨[], .ok (), [], List.not_mem_nil, .exhausted⟩
  | cons read more ih =>
    cases read with
    | failure e => exact ⟨[], .error e, more, List.not_mem_nil, .failed⟩
    | data chunk =>
      by_cases nothing : chunk = []
      · subst nothing
        exact ⟨[], .ok (), more, List.not_mem_nil, .nothing⟩
      · obtain ⟨chunks, outcome, unread, some_bytes, ends⟩ := ih
        refine ⟨chunk :: chunks, outcome, unread, ?_, ends.cons chunk⟩
        simp [some_bytes, Ne.symm nothing]

/-- Cutting bytes to the size of the buffer loses none. -/
theorem exists_chunks_ofBytes (bytes : List UInt8) :
    ∃ chunks : List (List UInt8),
      [] ∉ chunks ∧ ofBytes bytes = chunks.map .data ∧ chunks.flatten = bytes := by
  induction bytes using ofBytes.induct with
  | case1 bytes empty =>
    rw [List.isEmpty_iff] at empty
    subst empty
    exact ⟨[], List.not_mem_nil, by rw [ofBytes]; rfl, rfl⟩
  | case2 bytes some_bytes ih =>
    obtain ⟨chunks, nonempty, split, joined⟩ := ih
    have piece : bytes.take bufferSize ≠ [] := by
      rw [List.isEmpty_iff] at some_bytes
      rw [Ne, List.take_eq_nil_iff, not_or]
      exact ⟨Nat.ne_of_gt bufferSize_pos, some_bytes⟩
    refine ⟨bytes.take bufferSize :: chunks, ?_, ?_, ?_⟩
    · rw [List.mem_cons, not_or]
      exact ⟨piece.symm, nonempty⟩
    · rw [ofBytes, if_neg some_bytes, split, List.map_cons]
    · rw [List.flatten_cons, joined, List.take_append_drop]

end Read

namespace Algorithm

variable (a : Algorithm) {fs : FileSystem} {path : Path}

theorem hashReads_of_ends {chunks : List (List UInt8)} {outcome : Except AccessError Unit}
    {unread reads : List Read} (some_bytes : [] ∉ chunks)
    (ends : Read.Ends chunks outcome unread reads) :
    a.hashReads reads = (outcome.map fun _ => a.hash chunks.flatten, unread) := by
  have digest := Hasher.finish_foldl_update (a := a) chunks
  rw [hashReads]
  cases ends with
  | exhausted =>
    rw [← List.append_nil (chunks.map Read.data), Hasher.finishReading_append _ some_bytes,
      Hasher.finishReading, digest]
    rfl
  | nothing =>
    rw [Hasher.finishReading_append _ some_bytes, Hasher.finishReading, digest]
    rfl
  | failed =>
    rw [Hasher.finishReading_append _ some_bytes, Hasher.finishReading]
    rfl

theorem hashFile_of_read {contents : List UInt8} (read : fs.read path = .ok contents) :
    a.hashFile fs path = .ok (a.hash contents) := by
  obtain ⟨chunks, some_bytes, split, rfl⟩ := Read.exists_chunks_ofBytes contents
  have ends : Read.Ends chunks (.ok ()) [] (Read.ofBytes chunks.flatten) := split ▸ .exhausted
  simp only [hashFile, read, a.hashReads_of_ends some_bytes ends, Except.map]

theorem hashFile_of_read_error {e : AccessError} (failed : fs.read path = .error e) :
    a.hashFile fs path = .error (.access path.display e) := by
  simp only [hashFile, failed]

/-- Whatever pieces the bytes come in, from a caller, a reader or a file, the digest is that of all
of them together. A reader that fails gives the error of its first failing read instead, and either
way the reads behind the one that ended it are left. -/
theorem streaming_is_hashing_at_once (a : Algorithm) :
    (∀ reads, ∃ chunks outcome unread, [] ∉ chunks ∧ Read.Ends chunks outcome unread reads) ∧
    (∀ chunks outcome unread reads, [] ∉ chunks → Read.Ends chunks outcome unread reads →
      a.hashReads reads = (outcome.map fun _ => a.hash chunks.flatten, unread)) ∧
    (∀ chunks : List (List UInt8),
      (chunks.foldl Hasher.update (Hasher.start : Hasher a)).finish = a.hash chunks.flatten) ∧
    ∀ (fs : FileSystem) (path : Path) (contents : List UInt8), fs.read path = .ok contents →
      a.hashFile fs path = .ok (a.hash contents) := by
  refine ⟨Read.exists_ends, fun _ _ _ _ => a.hashReads_of_ends, Hasher.finish_foldl_update, ?_⟩
  intro fs path contents
  exact a.hashFile_of_read

/-- Two pieces and then a read that is interrupted, or the end with a failure behind it. -/
theorem streaming_is_hashing_at_once_of_two_pieces :
    let interrupted : AccessError := .raised .interrupted "interrupted"
    let pieces : List (List UInt8) := [[97], [98, 99]]
    [] ∉ pieces ∧
      sha1.hashReads (pieces.map .data ++ .failure interrupted :: [.data [100]]) =
        (.error interrupted, [.data [100]]) ∧
      sha1.hashReads (pieces.map .data ++ .data [] :: [.failure interrupted]) =
        (.ok (sha1.hash [97, 98, 99]), [.failure interrupted]) := by
  intro interrupted pieces
  have some_bytes : [] ∉ pieces := by decide
  have ending := (streaming_is_hashing_at_once sha1).2.1 pieces
  exact ⟨some_bytes, ending _ _ _ some_bytes .failed, ending _ _ _ some_bytes .nothing⟩

end Algorithm
end BillOfMaterials
