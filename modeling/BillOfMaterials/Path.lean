import BillOfMaterials.Text.Utf8

/-!
# Paths

A path is a byte sequence whose components are separated by slashes. Repeated slashes and a `.`
that is not in front do not count as components, a leading `./` does, and `..` is a component like
any other. `Path.rest?` strips whole components off the front and returns a contiguous part of the
bytes.
-/
namespace BillOfMaterials

structure Path where
  bytes : List UInt8
  deriving DecidableEq

inductive Component where
  | root
  | current
  | parent
  | normal (name : List UInt8)
  deriving DecidableEq

namespace Path

def slash : UInt8 := 47

def dot : UInt8 := 46

/-- The parts between slashes, empty ones included. -/
def segments (bytes : List UInt8) : List (List UInt8) :=
  bytes.foldr (fun b parts =>
    if b = slash then [] :: parts
    else match parts with
      | [] => [[b]]
      | part :: more => (b :: part) :: more) [[]]

def join (parts : List (List UInt8)) : List UInt8 := [slash].intercalate parts

/-- A segment that is no component. -/
def isBlank (segment : List UInt8) : Bool := segment == [] || segment == [dot]

def component (segment : List UInt8) : Component :=
  if segment = [dot, dot] then .parent else .normal segment

/-- The component at the front that no separator closes, and the bytes behind it: a root slash, or a
`.` that stands alone or before a slash. -/
def front (bytes : List UInt8) : List Component × List UInt8 :=
  match bytes with
  | [] => ([], [])
  | b :: rest =>
    if b = slash then ([.root], rest)
    else if b = dot ∧ (rest.head?.getD slash) = slash then ([.current], rest)
    else ([], bytes)

def ofString (text : String) : Path := ⟨Text.Utf8.encode text⟩

/-- The text shown for a path. -/
def display (p : Path) : String := Text.Utf8.decodeLossy p.bytes

def isEmpty (p : Path) : Bool := p.bytes.isEmpty

def components (p : Path) : List Component :=
  (front p.bytes).1 ++ ((segments (front p.bytes).2).filter fun s => !isBlank s).map component

/-- Drops the segments of the given components, if they come first; blank segments do not count. -/
def dropComponents : List Component → List (List UInt8) → Option (List (List UInt8))
  | [], parts => some parts
  | c :: more, parts =>
    match parts.dropWhile isBlank with
    | [] => none
    | part :: rest => if component part = c then dropComponents more rest else none

/-- What is left of `p` behind the components of `base`, without the blank segments on its
outside. -/
def rest? (p base : Path) : Option Path :=
  let (lead, body) := front p.bytes
  let wanted := base.components
  if wanted.take lead.length = lead then
    (dropComponents (wanted.drop lead.length) (segments body)).map fun parts =>
      ⟨join (((parts.dropWhile isBlank).reverse.dropWhile isBlank).reverse)⟩
  else none

end Path
end BillOfMaterials
