/-!
# Access errors

Why an open or a read failed, and the words the operating system has for it.
-/
namespace BillOfMaterials

/-- The kinds of failure a reader can raise on its own account. -/
inductive FailureKind where
  | notFound
  | interrupted
  | unexpectedEnd
  | other
  deriving DecidableEq

inductive AccessError where
  | notFound
  | notDirectory
  | isDirectory
  | nameTooLong
  | nulInPath
  | notText
  | raised (kind : FailureKind) (text : String)
  deriving DecidableEq

def AccessError.message : AccessError → String
  | .notFound => "No such file or directory (os error 2)"
  | .notDirectory => "Not a directory (os error 20)"
  | .isDirectory => "Is a directory (os error 21)"
  | .nameTooLong => "File name too long (os error 36)"
  | .nulInPath => "file name contained an unexpected NUL byte"
  | .notText => "stream did not contain valid UTF-8"
  | .raised _ text => text

end BillOfMaterials
