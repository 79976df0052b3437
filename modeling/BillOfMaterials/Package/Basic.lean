import BillOfMaterials.File.Basic
import BillOfMaterials.Options
import BillOfMaterials.Party

/-!
# Packages

A package owns files, sub-packages and dependencies, each under the identifier it was attached
with. Children are kept in strictly ascending order of these keys; the order is part of their type.
The key of a child is not its identifier field, which can be edited later.
-/
namespace BillOfMaterials

/-- The data of a package apart from what it owns. -/
structure PackageInfo where
  name : String := ""
  id : String := ""
  downloadLocation : String := ""
  sourceFile : String := ""
  fileName : String := ""
  version : String := ""
  supplier : Party := {}
  originator : Party := {}
  licenseConcluded : String := ""
  licenseDeclared : String := ""
  licenseComments : String := ""
  copyrightText : String := ""
  filesAnalyzed : Bool := false
  checksums : SortedMap String := .empty

/-- What the files of a package amount to: one code for their contents, and their licences. -/
structure Verification where
  code : String := ""
  licenses : List String := []
  deriving DecidableEq

/-- A key may follow in ascending order if it is above the floor, when there is one. -/
def Above (floor : Option String) (key : String) : Prop :=
  match floor with
  | none => True
  | some f => f < key

mutual

structure Package where
  info : PackageInfo
  /-- As found by the last rendering. -/
  verification : Verification
  files : SortedMap File
  packages : Children none
  dependencies : Children none
  options : Options

/-- Packages under ascending keys, all above the floor. -/
inductive Children : Option String → Type
  | nil {floor : Option String} : Children floor
  | cons {floor : Option String} (key : String) (above : Above floor key) (child : Package)
      (rest : Children (some key)) : Children floor

end

namespace Children

variable {floor : Option String}

instance : Inhabited (Children floor) := ⟨.nil⟩

def toList {floor : Option String} : Children floor → List (String × Package)
  | .nil => []
  | .cons key _ child rest => (key, child) :: rest.toList

def isEmpty : Children floor → Bool
  | .nil => true
  | .cons .. => false

def size (c : Children floor) : Nat := c.toList.length

def find? (c : Children floor) (key : String) : Option Package := c.toList.lookup key

def contains (c : Children floor) (key : String) : Bool := (c.find? key).isSome

/-- Puts a child in front of the first greater key, in place of one with the same key. -/
def insert {floor : Option String} (key : String) (child : Package) (above : Above floor key) :
    Children floor → Children floor
  | .nil => .cons key above child .nil
  | .cons key' above' child' rest =>
    if before : key < key' then .cons key above child (.cons key' before child' rest)
    else if after : key' < key then .cons key' above' child' (rest.insert key child after)
    else .cons key' above' child rest

/-- Applies an action to the child under a key and keeps what it returns beside the new child. -/
def modify {floor : Option String} {α : Type} (key : String) (act : Package → α × Package) :
    Children floor → Option (α × Children floor)
  | .nil => none
  | .cons key' above' child rest =>
    if key' = key then
      let (result, child) := act child
      some (result, .cons key' above' child rest)
    else (rest.modify key act).map fun (result, rest) => (result, .cons key' above' child rest)

end Children

namespace Package

def ofInfo (info : PackageInfo) : Package := ⟨info, {}, .empty, .nil, .nil, {}⟩

instance : Inhabited Package := ⟨ofInfo {}⟩

def named (name : String) : Package := ofInfo { name }

def name (p : Package) : String := p.info.name

def id (p : Package) : String := p.info.id

def withId (p : Package) (id : String) : Package := { p with info := { p.info with id } }

def withOptions (p : Package) (options : Options) : Package := { p with options }

def file? (p : Package) (id : String) : Option File := p.files.find? id

def hasChildren (p : Package) : Bool :=
  !(p.files.isEmpty && p.packages.isEmpty && p.dependencies.isEmpty)

/-- The children under a relationship: sub-packages are contained, dependencies depended on. -/
def children (p : Package) : Relationship → Children none
  | .contains => p.packages
  | .dependsOn => p.dependencies

def setChildren (p : Package) : Relationship → Children none → Package
  | .contains, c => { p with packages := c }
  | .dependsOn, c => { p with dependencies := c }

/-- One step down a tree: the relationship and the key under which a child was attached. -/
abbrev Hop := Relationship × String

/-- Applies an action to the package that the hops lead to, if there is one. -/
def modifyAt {α : Type} (act : Package → α × Package) : List Hop → Package → Option (α × Package)
  | [], p => some (act p)
  | hop :: more, p =>
    match (p.children hop.1).modify hop.2 fun child =>
        match modifyAt act more child with
        | some (result, child) => (some result, child)
        | none => (none, child) with
    | some (some result, c) => some (result, p.setChildren hop.1 c)
    | _ => none

end Package
end BillOfMaterials
