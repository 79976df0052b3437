import BillOfMaterials.Digest.Sha1
import BillOfMaterials.Digest.Sha2
import BillOfMaterials.Text.Hex
import BillOfMaterials.Text.Utf8

/-!
# Checksum algorithms

The three algorithms of a document and the lowercase hexadecimal digests they give, of a whole byte
string or of its pieces.
-/
namespace BillOfMaterials

inductive Algorithm where
  | sha1
  | sha256
  | sha512
  deriving DecidableEq

namespace Algorithm

/-- The name under which a checksum is stored and printed. -/
def name : Algorithm → String
  | .sha1 => "SHA1"
  | .sha256 => "SHA256"
  | .sha512 => "SHA512"

def State : Algorithm → Type
  | .sha1 => Digest.Sha1.State
  | .sha256 => Digest.Sha2.State UInt32
  | .sha512 => Digest.Sha2.State UInt64

def blockHash : (a : Algorithm) → Digest.BlockHash a.State
  | .sha1 => Digest.sha1
  | .sha256 => Digest.sha256
  | .sha512 => Digest.sha512

def hash (a : Algorithm) (bytes : List UInt8) : String :=
  Text.Hex.encode (a.blockHash.digest bytes)

/-- The digest of a text is that of its UTF-8 bytes. -/
def hashText (a : Algorithm) (text : String) : String := a.hash (Text.Utf8.encode text)

end Algorithm

/-- A digest in progress. -/
structure Hasher (a : Algorithm) where
  progress : a.blockHash.Progress

namespace Hasher

variable {a : Algorithm}

def start : Hasher a := ⟨.start⟩

def update (h : Hasher a) (chunk : List UInt8) : Hasher a := ⟨h.progress.update chunk⟩

def finish (h : Hasher a) : String := Text.Hex.encode h.progress.finish

end Hasher
end BillOfMaterials
