/-!
# Log events

What the library reports while it works: a cause for each event, with its level, its message, the
values it carries and the part of the library it comes from.
-/
namespace BillOfMaterials

/-- From the least to the most verbose. -/
inductive Level where
  | error
  | warn
  | info
  | debug
  | trace
  deriving DecidableEq

def Level.name : Level → String
  | .error => "ERROR"
  | .warn => "WARN"
  | .info => "INFO"
  | .debug => "DEBUG"
  | .trace => "TRACE"

inductive Event where
  | fileHashed (path : String)
  | packageSourceRead (package source fileName : String)
  | fileReplaced (package file : String)
  | subpackageAdded (parent package : String)
  | dependencyAdded (parent dependency : String)
  | packageRendered (package : String) (files packages dependencies : Nat)
  | outsideWorkDir (path workDir : String)
  | configLoaded (logLevel workDir : String)
  deriving DecidableEq

namespace Event

def level : Event → Level
  | .outsideWorkDir .. => .warn
  | _ => .debug

def message : Event → String
  | .fileHashed .. => "file checksums computed"
  | .packageSourceRead .. => "package source file read"
  | .fileReplaced .. => "file replaced"
  | .subpackageAdded .. => "subpackage added"
  | .dependencyAdded .. => "dependency added"
  | .packageRendered .. => "package rendered"
  | .outsideWorkDir .. => "path is outside the working directory, using it unmodified"
  | .configLoaded .. => "configuration loaded"

/-- The values an event carries, in the order in which they are printed. -/
def fields : Event → List (String × String)
  | .fileHashed path => [("path", path)]
  | .packageSourceRead package source fileName =>
    [("package", package), ("source_file", source), ("file_name", fileName)]
  | .fileReplaced package file => [("package", package), ("file_id", file)]
  | .subpackageAdded parent package => [("parent", parent), ("package", package)]
  | .dependencyAdded parent dependency => [("parent", parent), ("dependency", dependency)]
  | .packageRendered package files packages dependencies =>
    [("package", package), ("files", toString files), ("packages", toString packages),
      ("dependencies", toString dependencies)]
  | .outsideWorkDir path workDir => [("path", path), ("work_dir", workDir)]
  | .configLoaded logLevel workDir => [("log_level", logLevel), ("work_dir", workDir)]

/-- The name of the part an event comes from, which log filters select by. -/
def target : Event → String
  | .fileHashed .. => "sbomkit_spdx::file"
  | .outsideWorkDir .. => "sbomkit_spdx::config"
  | .configLoaded .. => "sbomkit_core::config"
  | _ => "sbomkit_spdx::package"

end Event
end BillOfMaterials
