import BillOfMaterials.FileSystem.AccessError
import BillOfMaterials.Package.Basic

/-!
# Errors

Why building or rendering a document failed. An error is a cause, wrapped in any number of contexts
that say what was being done; the first cause stays reachable below them. Each cause has one text.
-/
namespace BillOfMaterials

/-- What an operation needed and was not given. -/
inductive MissingInput where
  | fileName
  | packageName
  | usableName
  | fileSource (path : String)
  | packageSource (path : String)
  | ownerId (package : String)
  | other (what : String)
  deriving DecidableEq

def MissingInput.text : MissingInput → String
  | .fileName => "unable to generate file ID, filename not set"
  | .packageName => "unable to generate file ID, package name not set"
  | .usableName => "package name is needed to add a new package"
  | .fileSource path => "unable to find file source: " ++ path
  | .packageSource path => "unable to find package source file: " ++ path
  | .ownerId package => "package " ++ package ++ " has children but no SPDX ID"
  | .other what => what

/-- Why the files of a package could not be summed up. -/
inductive IncompleteData where
  | noFiles
  | noChecksums (file : String)
  | other (what : String)
  deriving DecidableEq

def IncompleteData.text : IncompleteData → String
  | .noFiles => "unable to get package verification code, package has no files"
  | .noChecksums file => "unable to render package, file " ++ file ++ " has no checksums"
  | .other what => what

/-- What an identifier is already used for. -/
inductive Namespace where
  | file
  | subpackage
  | dependency
  deriving DecidableEq

def Namespace.name : Namespace → String
  | .file => "file"
  | .subpackage => "subpackage"
  | .dependency => "dependency"

inductive Error where
  | missingInput (what : MissingInput)
  /-- The identifier of a package is taken; the refused package goes back to the caller. -/
  | conflict (id : String) (takenAs : Namespace) (refused : Option Package)
  | incompleteData (what : IncompleteData)
  | missingChecksum (file algorithm : String)
  | access (path : String) (cause : AccessError)
  | format
  | within (context : String) (cause : Error)

/-- What a caller can tell an error by; wrapping changes it. -/
inductive ErrorKind where
  | missingInput
  | conflict
  | incompleteData
  /-- Something the library relies on failed, or an operation inside another one did. -/
  | underlying
  deriving DecidableEq

def ErrorKind.name : ErrorKind → String
  | .missingInput => "missing-input"
  | .conflict => "conflict"
  | .incompleteData => "incomplete-data"
  | .underlying => "upstream-failure"

namespace Error

instance : Inhabited Error := ⟨.format⟩

def formatText : String := "an error occurred when formatting an argument"

def message : Error → String
  | .missingInput what => "missing input: " ++ what.text
  | .conflict id takenAs _ => "a package named " ++ id ++ " already exists as a " ++ takenAs.name
  | .incompleteData what => "incomplete data: " ++ what.text
  | .missingChecksum file algorithm =>
    "incomplete data: file " ++ file ++ " has no " ++ algorithm ++ " checksum"
  | .access path cause => "io error: " ++ path ++ ": " ++ cause.message
  | .format => "formatting failed: " ++ formatText
  | .within context cause => context ++ ": " ++ cause.message

def kind : Error → ErrorKind
  | .missingInput _ => .missingInput
  | .conflict .. => .conflict
  | .incompleteData _ | .missingChecksum .. => .incompleteData
  | .access .. | .format | .within .. => .underlying

def rootCause : Error → Error
  | .within _ cause => cause.rootCause
  | e => e

/-- The package that an attachment refused, unless the error has been wrapped. -/
def refused? : Error → Option Package
  | .conflict _ _ refused => refused
  | _ => none

/-- The texts of what lies below the error, from the outside in. -/
def sources : Error → List String
  | .access _ cause => [cause.message]
  | .format => [formatText]
  | .within _ cause => cause.message :: cause.sources
  | _ => []

end Error

/-- The error of the last of `contexts` around the others around `e`. -/
def Error.withinAll (e : Error) (contexts : List String) : Error :=
  contexts.foldl (fun e context => .within context e) e

/-- What an operation did: its result, the value it worked on afterwards and the events it
logged. -/
structure Outcome (σ α : Type) where
  result : Except Error α
  state : σ
  events : List Event

end BillOfMaterials
