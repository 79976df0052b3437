import BillOfMaterials.Error

/-!
# Package verification

Sums up the files of a package: the code is the SHA-1 digest of their SHA-1 checksums, sorted and
put together, and the licences are the distinct tags the files carry, in order of first occurrence.
Placeholders among the tags are not listed; if there are no tags at all, the list says so.
-/
namespace BillOfMaterials.Verification

/-- The SHA-1 checksum of a file that is to be summed up. -/
def checksum (f : File) : Except Error String :=
  if f.checksums.isEmpty then .error (.incompleteData (.noChecksums f.label))
  else match f.checksum? .sha1 with
    | some sum => .ok sum
    | none => .error (.missingChecksum f.label Algorithm.sha1.name)

/-- The checksums of all files, or the error of the first file without one. -/
def checksums (files : List File) : Except Error (List String) := files.mapM checksum

/-- The text whose digest is the verification code. -/
def codeKey (sums : List String) : String :=
  String.join (sums.mergeSort fun a b => decide (a ≤ b))

/-- The distinct licence tags of the files, in order of first occurrence. -/
def licenseTags (files : List File) : List String :=
  ((files.map File.licenseInfo).filter fun tag => !tag.isEmpty).eraseDups

def isPlaceholder (tag : String) : Bool :=
  tag == Placeholder.none.text || tag == Placeholder.noAssertion.text

def listedLicenses (files : List File) : List String :=
  if (licenseTags files).isEmpty then [Placeholder.none.text]
  else (licenseTags files).filter fun tag => !isPlaceholder tag

def ofFiles (files : List File) : Except Error Verification :=
  match checksums files with
  | .error e => .error e
  | .ok [] => .error (.incompleteData .noFiles)
  | .ok sums => .ok ⟨Algorithm.sha1.hashText (codeKey sums), listedLicenses files⟩

end BillOfMaterials.Verification
