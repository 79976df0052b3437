import BillOfMaterials.Failure
import BillOfMaterials.Toml.Document
import BillOfMaterials.Toml.Record

/-!
# Configuration

The settings, their defaults, their reading from TOML and their validity. The first invalid setting
in the order of the fields is the one reported.
-/
namespace BillOfMaterials

structure GeneralConfig where
  logLevel : String := "info"
  logFormat : String := "json"
  deriving DecidableEq, Inhabited

structure SpdxConfig where
  /-- The directory from which source paths are told; empty for none. -/
  workDir : String := ""
  deriving DecidableEq, Inhabited

structure Config where
  general : GeneralConfig := {}
  spdx : SpdxConfig := {}
  deriving DecidableEq, Inhabited

/-- The options of packages that are built under a configuration. -/
def Options.ofConfig (c : SpdxConfig) : Options := ⟨Path.ofString c.workDir⟩

namespace Config

def generalRecord : Toml.Record GeneralConfig where
  initial := {}
  fields := [
    .ofString "log_level" fun c logLevel => { c with logLevel },
    .ofString "log_format" fun c logFormat => { c with logFormat }]

def spdxRecord : Toml.Record SpdxConfig where
  initial := {}
  fields := [.ofString "work_dir" fun c workDir => { c with workDir }]

def tomlRecord : Toml.Record Config where
  initial := {}
  fields := [
    .ofRecord "general" generalRecord fun c general => { c with general },
    .ofRecord "spdx" spdxRecord fun c spdx => { c with spdx }]

/-- The configuration in a TOML text. Settings that are left out have their defaults. -/
def parse (text : String) : Except Failure Config :=
  match Toml.parse text with
  | none => .error (.config (.parseFailed "the text is not a TOML document"))
  | some entries =>
    match tomlRecord.readEntries entries with
    | none => .error (.config (.parseFailed "a setting has a value of the wrong type"))
    | some c => .ok c

def logLevels : List String := ["trace", "debug", "info", "warn", "error"]

def logFormats : List String := ["json", "pretty"]

def oneOf (allowed : List String) : String := "must be one of: " ++ ", ".intercalate allowed

def invalid (field reason : String) : Except Failure Unit :=
  .error (.config (.invalidValue field reason))

def validate (c : Config) : Except Failure Unit :=
  if !logLevels.contains c.general.logLevel then invalid "general.log_level" (oneOf logLevels)
  else if !logFormats.contains c.general.logFormat then
    invalid "general.log_format" (oneOf logFormats)
  else if (Path.ofString c.spdx.workDir).components.contains .parent then
    invalid "spdx.work_dir" "must not contain path traversal pattern '..'"
  else .ok ()

end Config
end BillOfMaterials
