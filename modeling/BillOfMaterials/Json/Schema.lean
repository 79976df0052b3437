import BillOfMaterials.Config.Basic
import BillOfMaterials.File.Basic
import BillOfMaterials.Json.Record
import BillOfMaterials.Options
import BillOfMaterials.Party

/-!
# JSON forms

The records that are exchanged as JSON, with the names and the order of their fields.
-/
namespace BillOfMaterials

def File.json : Json.Record File where
  initial := {}
  fields := [
    .ofString "id" File.id fun f id => { f with id },
    .ofString "name" File.name fun f name => { f with name },
    .ofString "file_name" File.fileName fun f fileName => { f with fileName },
    .ofString "source_file" File.sourceFile fun f sourceFile => { f with sourceFile },
    .ofString "license_concluded" File.licenseConcluded fun f licenseConcluded =>
      { f with licenseConcluded },
    .ofString "license_info_in_file" File.licenseInfo fun f licenseInfo => { f with licenseInfo },
    .ofString "copyright_text" File.copyrightText fun f copyrightText => { f with copyrightText },
    .ofStringMap "checksum" File.checksums fun f checksums => { f with checksums }]

def Party.json : Json.Record Party where
  initial := {}
  fields := [
    .ofString "person" Party.person fun p person => { p with person },
    .ofString "organization" Party.organization fun p organization => { p with organization }]

/-- A working directory whose path is not valid UTF-8 is written as it is displayed. -/
def Options.json : Json.Record Options where
  initial := {}
  fields := [
    .ofString "work_dir" (fun o => o.workDir.display) fun _ workDir => ⟨Path.ofString workDir⟩]

def GeneralConfig.json : Json.Record GeneralConfig where
  initial := {}
  fields := [
    .ofString "log_level" GeneralConfig.logLevel fun c logLevel => { c with logLevel },
    .ofString "log_format" GeneralConfig.logFormat fun c logFormat => { c with logFormat }]

def SpdxConfig.json : Json.Record SpdxConfig where
  initial := {}
  fields := [.ofString "work_dir" SpdxConfig.workDir fun c workDir => { c with workDir }]

def Config.json : Json.Record Config where
  initial := {}
  fields := [
    .ofRecord "general" GeneralConfig.json Config.general fun c general => { c with general },
    .ofRecord "spdx" SpdxConfig.json Config.spdx fun c spdx => { c with spdx }]

/-- The JSON text of options, which exists if the working directory is valid UTF-8. -/
def Options.toJson? (o : Options) : Option String :=
  if o.workDirText?.isSome then some (Options.json.encode o) else none

end BillOfMaterials
