import BillOfMaterials.Config.Basic
import BillOfMaterials.FileSystem

/-!
# Loading configuration

A configuration file is parsed and validated as it stands. Loading then lets environment variables
override settings, validates the outcome and logs it.
-/
namespace BillOfMaterials

/-- The bytes of each variable that is set. -/
abbrev Environment := String → Option (List UInt8)

/-- The text of a variable. One that is not valid UTF-8 counts as not set. -/
def Environment.text? (env : Environment) (name : String) : Option String :=
  (env name).bind Text.Utf8.decode?

namespace Config

def logLevelVariable : String := "SBOMKIT_GENERAL_LOG_LEVEL"

def logFormatVariable : String := "SBOMKIT_GENERAL_LOG_FORMAT"

def workDirVariable : String := "SBOMKIT_SPDX_WORK_DIR"

/-- The settings with those that a variable overrides replaced, by an empty text as well. -/
def overriddenBy (c : Config) (env : Environment) : Config where
  general.logLevel := (env.text? logLevelVariable).getD c.general.logLevel
  general.logFormat := (env.text? logFormatVariable).getD c.general.logFormat
  spdx.workDir := (env.text? workDirVariable).getD c.spdx.workDir

/-- The failure to read a configuration file; a missing file is told by its path. -/
def accessFailure (path : Path) : AccessError → Failure
  | .notFound | .raised .notFound _ => .config (.fileNotFound path.display)
  | e => .access e

def fromFile (fs : FileSystem) (path : Path) : Except Failure Config :=
  match fs.readText path with
  | .error e => .error (accessFailure path e)
  | .ok text =>
    match parse text with
    | .error e => .error e
    | .ok c => c.validate.map fun _ => c

def loadedEvent (c : Config) : Event := .configLoaded c.general.logLevel c.spdx.workDir

/-- The configuration in force, with the events of loading it. -/
def load (fs : FileSystem) (env : Environment) (path : Path) :
    Except Failure Config × List Event :=
  match fromFile fs path with
  | .error e => (.error e, [])
  | .ok c =>
    let merged := c.overriddenBy env
    match merged.validate with
    | .error e => (.error e, [])
    | .ok () => (.ok merged, [loadedEvent merged])

end Config
end BillOfMaterials
