import BillOfMaterials.Digest.Reading
import BillOfMaterials.FileSystem
import BillOfMaterials.Error

/-!
# Source files

Fills in a file or a package from the source file at a path: its checksums and how it is told. A
failure leaves the value as it was.
-/
namespace BillOfMaterials

/-- The digest of a file's contents, read a buffer at a time. -/
def Algorithm.hashFile (a : Algorithm) (fs : FileSystem) (path : Path) : Except Error String :=
  match fs.read path with
  | .error e => .error (.access path.display e)
  | .ok contents =>
    match (a.hashReads (Read.ofBytes contents)).1 with
    | .error e => .error (.access path.display e)
    | .ok digest => .ok digest

/-- A file system that others may change while a source file is read: as it is when the path is
looked for, and as it is when each digest is taken. -/
structure Course where
  first : FileSystem
  during : Algorithm → FileSystem

/-- A file system that stays as it is. -/
def FileSystem.still (fs : FileSystem) : Course := ⟨fs, fun _ => fs⟩

/-- Checksums of a file by the names of `algorithms`. An error says which one was being taken. -/
def sourceChecksums (during : Algorithm → FileSystem) (path : Path) (context : Algorithm → String)
    (algorithms : List Algorithm) : Except Error (SortedMap String) :=
  algorithms.foldlM (fun sums a =>
    match a.hashFile (during a) path with
    | .error e => .error (.within (context a) e)
    | .ok digest => .ok (sums.insert a.name digest)) .empty

namespace File

def hashContext (a : Algorithm) : String := "getting file " ++ a.name

/-- Replaces the checksums by those of the file at `path`, under all three algorithms. -/
def readSourceDuring (f : File) (course : Course) (path : Path) : Outcome File Unit :=
  if !course.first.pathExists path then
    ⟨.error (.missingInput (.fileSource path.display)), f, []⟩
  else match sourceChecksums course.during path hashContext [.sha1, .sha256, .sha512] with
    | .error e => ⟨.error e, f, []⟩
    | .ok checksums =>
      ⟨.ok (), { f with checksums, sourceFile := path.display }, [.fileHashed path.display]⟩

def readSource (f : File) (fs : FileSystem) (path : Path) : Outcome File Unit :=
  f.readSourceDuring fs.still path

end File

namespace Package

def hashContext : Algorithm → String
  | .sha1 => "getting source file sha1"
  | .sha256 => "getting source file sha256"
  | .sha512 => "getting source file sha512"

/-- Replaces the checksums by those of the archive at `path` and tells it from the working
directory. -/
def readSourceDuring (p : Package) (course : Course) (path : Path) : Outcome Package Unit :=
  if !course.first.pathExists path then
    ⟨.error (.missingInput (.packageSource path.display)), p, []⟩
  else match sourceChecksums course.during path hashContext [.sha256, .sha512] with
    | .error e => ⟨.error e, p, []⟩
    | .ok checksums =>
      let (fileName, warnings) := p.options.relativePath path
      let info := { p.info with checksums, sourceFile := path.display, fileName }
      ⟨.ok (), { p with info },
        warnings ++ [.packageSourceRead p.name path.display fileName]⟩

def readSource (p : Package) (fs : FileSystem) (path : Path) : Outcome Package Unit :=
  p.readSourceDuring fs.still path

end Package
end BillOfMaterials
