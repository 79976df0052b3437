import BillOfMaterials.Digest.Algorithm
import BillOfMaterials.FileSystem.AccessError

/-!
# Digests of what a reader hands out

A reader is the list of outcomes of its reads. Hashing stops at the first read that hands out
nothing, which is the end, or that fails, whatever the failure. The reads behind it are left to the
caller.
-/
namespace BillOfMaterials

inductive Read where
  | data (bytes : List UInt8)
  | failure (error : AccessError)

namespace Read

/-- The most bytes that one read hands out. -/
def bufferSize : Nat := 8192

theorem bufferSize_pos : 0 < bufferSize := by decide

/-- The reads that hand out `bytes` a buffer at a time. -/
def ofBytes (bytes : List UInt8) : List Read :=
  if bytes.isEmpty then []
  else .data (bytes.take bufferSize) :: ofBytes (bytes.drop bufferSize)
termination_by bytes.length
decreasing_by
  cases bytes with
  | nil => simp_all
  | cons b rest => simp only [List.length_drop, List.length_cons, bufferSize]; omega

end Read

/-- Reads to the end, and returns the reads that were not made with the digest; after the last
listed read nothing more comes. -/
def Hasher.finishReading {a : Algorithm} :
    Hasher a → List Read → Except AccessError String × List Read
  | h, [] => (.ok h.finish, [])
  | _, .failure e :: more => (.error e, more)
  | h, .data bytes :: more =>
    if bytes.isEmpty then (.ok h.finish, more) else (h.update bytes).finishReading more

def Algorithm.hashReads (a : Algorithm) (reads : List Read) :
    Except AccessError String × List Read :=
  (Hasher.start : Hasher a).finishReading reads

end BillOfMaterials
