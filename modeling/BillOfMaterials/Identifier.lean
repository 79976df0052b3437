import BillOfMaterials.Error

/-!
# Synthesised identifiers

A file is identified by the SHA-1 digest of the names of its package and itself, a package by the
letters, digits, dots and hyphens of its name.
-/
namespace BillOfMaterials.Identifier

/-- The text whose digest identifies a file. -/
def fileKey (package file : String) : String := package ++ ":" ++ file

def ofFile (package file : String) : Except Error String :=
  if file.isEmpty then .error (.missingInput .fileName)
  else if package.isEmpty then .error (.missingInput .packageName)
  else .ok ("File-" ++ Algorithm.sha1.hashText (fileKey package file))

/-- ASCII letters and digits, the dot and the hyphen. -/
def isAllowed (c : Char) : Bool := c.isAlphanum || c == '.' || c == '-'

/-- The characters of a name that may stand in an identifier, in order. -/
def token (name : String) : String := String.ofList (name.toList.filter isAllowed)

def ofPackage (name : String) : Except Error String :=
  if (token name).isEmpty then .error (.missingInput .usableName)
  else .ok ("Package-" ++ token name)

end BillOfMaterials.Identifier
