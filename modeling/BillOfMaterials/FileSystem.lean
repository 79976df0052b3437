import BillOfMaterials.Path
import BillOfMaterials.FileSystem.AccessError

/-!
# File systems

The files and directories of a disk, as a value, with the working directory in which relative paths
begin. Looking up a path follows its names one by one, and the first name that cannot be followed
decides the error.
-/
namespace BillOfMaterials

abbrev FileName := List UInt8

/-- What reading a file comes to: its bytes, or why it cannot be opened or read to the end. -/
abbrev Contents := Except AccessError (List UInt8)

/-- Files and directories, each under its names from the root. The directories on the way to a
listed entry and to the working directory exist as well. -/
structure FileSystem where
  workDir : List FileName
  files : List (List FileName × Contents)
  directories : List (List FileName)

/-- What a name leads to. -/
inductive Node where
  | file (contents : Contents)
  | directory (names : List FileName)

namespace FileSystem

/-- Nothing but a working directory. -/
def bare (workDir : List FileName) : FileSystem := ⟨workDir, [], []⟩

/-- A bare file system with its working directory below that for temporary files. -/
def empty : FileSystem := bare [Text.Utf8.encode "tmp", Text.Utf8.encode "work"]

def isDirectory (fs : FileSystem) (names : List FileName) : Bool :=
  names.isPrefixOf fs.workDir || fs.directories.any names.isPrefixOf || fs.files.any fun f =>
    names.isPrefixOf f.1 && names.length < f.1.length

def entry? (fs : FileSystem) (names : List FileName) : Option Node :=
  match fs.files.lookup names with
  | some contents => some (.file contents)
  | none => if fs.isDirectory names then some (.directory names) else none

/-- Names have at most 255 bytes. -/
def maxNameLength : Nat := 255

/-- Paths have fewer bytes than this. -/
def maxPathLength : Nat := 4096

/-- Follows one component; only a directory can be followed further, and the root is above itself. -/
def follow (fs : FileSystem) (node : Node) (name : FileName) : Except AccessError Node :=
  match node with
  | .file _ => .error .notDirectory
  | .directory names =>
    if name = [Path.dot] then .ok node
    else if name = [Path.dot, Path.dot] then .ok (.directory names.dropLast)
    else if name.length > maxNameLength then .error .nameTooLong
    else match fs.entry? (names ++ [name]) with
      | some next => .ok next
      | none => .error .notFound

def followAll (fs : FileSystem) : Node → List FileName → Except AccessError Node
  | node, [] => .ok node
  | node, name :: more =>
    match fs.follow node name with
    | .error e => .error e
    | .ok next => fs.followAll next more

/-- Where a path begins: at the root or in the working directory. -/
def start (fs : FileSystem) (path : Path) : List FileName :=
  if path.bytes.head? = some Path.slash then [] else fs.workDir

/-- The node of a path. A trailing slash asks for a directory. -/
def lookup (fs : FileSystem) (path : Path) : Except AccessError Node :=
  if path.bytes.contains 0 then .error .nulInPath
  else if path.isEmpty then .error .notFound
  else if path.bytes.length ≥ maxPathLength then .error .nameTooLong
  else
    let names := (Path.segments path.bytes).filter fun s => !s.isEmpty
    match fs.followAll (.directory (fs.start path)) names with
    | .error e => .error e
    | .ok (.file contents) =>
      if path.bytes.getLast? = some Path.slash then .error .notDirectory else .ok (.file contents)
    | .ok node => .ok node

/-- Any error counts as absence. -/
def pathExists (fs : FileSystem) (path : Path) : Bool :=
  match fs.lookup path with
  | .ok _ => true
  | .error _ => false

/-- The bytes of a file; a directory can be opened but not read. -/
def read (fs : FileSystem) (path : Path) : Contents :=
  match fs.lookup path with
  | .error e => .error e
  | .ok (.file contents) => contents
  | .ok _ => .error .isDirectory

def readText (fs : FileSystem) (path : Path) : Except AccessError String :=
  match fs.read path with
  | .error e => .error e
  | .ok contents =>
    match Text.Utf8.decode? contents with
    | some text => .ok text
    | none => .error .notText

/-- The places a path passes, the last first, each by its names from the root. A `..` leads back to
the place before. -/
def places (fs : FileSystem) (path : Path) : List (List FileName) :=
  (Path.segments path.bytes).foldl (fun passed s =>
    let here := passed.headD (fs.start path)
    if Path.isBlank s then passed
    else if s = [Path.dot, Path.dot] then here.dropLast :: passed
    else (here ++ [s]) :: passed) []

/-- Creates a directory with all that its path passes. -/
def addDirectory (fs : FileSystem) (path : Path) : FileSystem :=
  { fs with directories := fs.places path ++ fs.directories }

/-- Writes a file, replacing an earlier one, and creates the directories that its path passes. -/
def addFile (fs : FileSystem) (path : Path) (contents : List UInt8) : FileSystem :=
  { fs with
    files := ((fs.places path).headD (fs.start path), .ok contents) :: fs.files
    directories := (fs.places path).drop 1 ++ fs.directories }

end FileSystem
end BillOfMaterials
