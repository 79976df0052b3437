import BillOfMaterials.Identifier

/-!
# Attaching files and packages

A file replaces the file with its identifier; a package is refused if its identifier is in use for
any file, sub-package or dependency of the owner. Missing identifiers are synthesised. A refused
attachment changes nothing and hands the package back.
-/
namespace BillOfMaterials.Package

/-- What the owner uses an identifier for; files are looked at first and dependencies last. -/
def namespaceOf (p : Package) (id : String) : Option Namespace :=
  if p.files.contains id then some .file
  else if p.packages.contains id then some .subpackage
  else if p.dependencies.contains id then some .dependency
  else none

def containsId (p : Package) (id : String) : Bool := (p.namespaceOf id).isSome

/-- The identifier a file gets in a package. -/
def fileId (p : Package) (f : File) : Except Error String :=
  if f.id.isEmpty then Identifier.ofFile p.name f.name else .ok f.id

def addFile (p : Package) (f : File) : Outcome Package String :=
  match p.fileId f with
  | .error e => ⟨.error e, p, []⟩
  | .ok id =>
    let replaced := if p.files.contains id then [.fileReplaced p.name id] else []
    ⟨.ok id, { p with files := p.files.insert id { f with id } }, replaced⟩

/-- The package with its identifier filled in. -/
def identified (child : Package) : Except Error Package :=
  if child.id.isEmpty then (Identifier.ofPackage child.name).map child.withId else .ok child

/-- The child as it will be stored, or why it cannot be. -/
def accept (p child : Package) : Except Error Package :=
  match child.identified with
  | .error e => .error e
  | .ok child =>
    match p.namespaceOf child.id with
    | some takenAs => .error (.conflict child.id takenAs (some child))
    | none => .ok child

def attachedEvent (owner child : String) : Relationship → Event
  | .contains => .subpackageAdded owner child
  | .dependsOn => .dependencyAdded owner child

/-- Attaches a package under a relationship and returns its identifier. -/
def attach (p : Package) (r : Relationship) (child : Package) : Outcome Package String :=
  match p.accept child with
  | .error e => ⟨.error e, p, []⟩
  | .ok child =>
    ⟨.ok child.id, p.setChildren r ((p.children r).insert child.id child trivial),
      [attachedEvent p.id child.id r]⟩

def addPackage (p child : Package) : Outcome Package String := p.attach .contains child

def addDependency (p child : Package) : Outcome Package String := p.attach .dependsOn child

end BillOfMaterials.Package
