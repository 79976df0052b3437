import BillOfMaterials.Document.Stanza
import BillOfMaterials.Digest.Algorithm
import BillOfMaterials.SortedMap

/-!
# Files

A file of a package with its licence data and its checksums by algorithm name, and the stanza that
describes it.
-/
namespace BillOfMaterials

structure File where
  id : String := ""
  name : String := ""
  fileName : String := ""
  sourceFile : String := ""
  licenseConcluded : String := ""
  licenseInfo : String := ""
  copyrightText : String := ""
  checksums : SortedMap String := .empty

instance : Inhabited File := ⟨{}⟩

/-- One field for each checksum that has a value, in ascending order of algorithm names. -/
def checksumFields (tag : String) (checksums : SortedMap String) : Stanza :=
  (checksums.entries.filter fun c => !c.2.isEmpty).map fun c => ⟨tag, c.1 ++ ": " ++ c.2⟩

namespace File

def named (name : String) : File := { name }

def withChecksum (f : File) (a : Algorithm) (value : String) : File :=
  { f with checksums := f.checksums.insert a.name value }

def withLicenseInfo (f : File) (tag : String) : File := { f with licenseInfo := tag }

def checksum? (f : File) (a : Algorithm) : Option String := f.checksums.find? a.name

/-- What messages call the file: its name, or its identifier if it has none. -/
def label (f : File) : String := if f.name.isEmpty then f.id else f.name

def stanza (f : File) : Stanza :=
  let named := (Stanza.pushSome [] "FileName" f.name).pushSome "SPDXID" f.id
  let summed : Stanza := named ++ checksumFields "FileChecksum" f.checksums
  let licensed := (summed.pushOr "LicenseConcluded" f.licenseConcluded .noAssertion).pushOr
    "LicenseInfoInFile" f.licenseInfo .noAssertion
  licensed.pushTextOr "FileCopyrightText" f.copyrightText .noAssertion

def render (f : File) : String := f.stanza.render

end File
end BillOfMaterials
