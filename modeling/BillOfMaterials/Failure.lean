import BillOfMaterials.Error

/-!
# Failures

What a caller of the whole toolkit is told: that the configuration, a document, the log or a file
failed. A document's failure is classed by the first cause of its error and keeps the full text.
-/
namespace BillOfMaterials

inductive ConfigError where
  | fileNotFound (path : String)
  | parseFailed (reason : String)
  | invalidValue (field reason : String)
  deriving DecidableEq

def ConfigError.message : ConfigError → String
  | .fileNotFound path => "config file not found: " ++ path
  | .parseFailed reason => "failed to parse config: " ++ reason
  | .invalidValue field reason => "invalid config value for '" ++ field ++ "': " ++ reason

inductive DocumentFailure where
  | missingInput (text : String)
  | conflict (text : String)
  | incompleteData (text : String)
  | renderFailed (text : String)
  deriving DecidableEq

def DocumentFailure.message : DocumentFailure → String
  | .missingInput text => "missing input: " ++ text
  | .conflict text => "conflict: " ++ text
  | .incompleteData text => "incomplete data: " ++ text
  | .renderFailed text => "render failed: " ++ text

inductive Failure where
  | config (error : ConfigError)
  | document (failure : DocumentFailure)
  | logging (reason : String)
  | access (error : AccessError)
  deriving DecidableEq

namespace Failure

def message : Failure → String
  | .config error => "config error: " ++ error.message
  | .document failure => "sbom error: " ++ failure.message
  | .logging reason => "logging init failed: " ++ reason
  | .access error => "io error: " ++ error.message

/-- The text of what lies below the failure. -/
def sources : Failure → List String
  | .config error => [error.message]
  | .document failure => [failure.message]
  | .logging _ => []
  | .access error => [error.message]

def ofError (e : Error) : Failure :=
  .document <| match e.rootCause.kind with
    | .missingInput => .missingInput e.message
    | .conflict => .conflict e.message
    | .incompleteData => .incompleteData e.message
    | .underlying => .renderFailed e.message

end Failure
end BillOfMaterials
