/-!
# Stanzas

A document is made of stanzas, each a list of tagged values in printing order, and of relationship
lines. A value that is absent is left out or replaced by a placeholder, and a text that may have
several lines is enclosed in `<text>` marks.
-/
namespace BillOfMaterials

/-- What stands for an absent value: that there is none, or that nothing is claimed about it. -/
inductive Placeholder where
  | none
  | noAssertion
  deriving DecidableEq

def Placeholder.text : Placeholder → String
  | .none => "NONE"
  | .noAssertion => "NOASSERTION"

structure Field where
  tag : String
  value : String
  deriving DecidableEq

abbrev Stanza := List Field

/-- A text of any number of lines between its marks. -/
def textBlock (text : String) : String := "<text>" ++ text ++ "\n</text>"

def Field.line (f : Field) : String := f.tag ++ ": " ++ f.value ++ "\n"

namespace Stanza

def push (s : Stanza) (tag value : String) : Stanza := s ++ [⟨tag, value⟩]

/-- Leaves out an empty value. -/
def pushSome (s : Stanza) (tag value : String) : Stanza :=
  if value.isEmpty then s else s.push tag value

/-- Puts the placeholder for an empty value. -/
def pushOr (s : Stanza) (tag value : String) (absent : Placeholder) : Stanza :=
  s.push tag (if value.isEmpty then absent.text else value)

/-- Puts a text block, or the placeholder for an empty text. -/
def pushTextOr (s : Stanza) (tag value : String) (absent : Placeholder) : Stanza :=
  s.push tag (if value.isEmpty then absent.text else textBlock value)

/-- The values under a tag, in order. -/
def values (s : Stanza) (tag : String) : List String :=
  (s.filter (·.tag == tag)).map Field.value

def contains (s : Stanza) (tag : String) : Bool := s.any (·.tag == tag)

/-- One line for each field and an empty line behind them. -/
def render (s : Stanza) : String := String.join (s.map Field.line) ++ "\n"

end Stanza

/-- The line that opens the stanza of a package. -/
def header (title : String) : String := "##### " ++ title ++ "\n\n"

/-- How a package relates to an element of its tree. -/
inductive Relationship where
  | contains
  | dependsOn
  deriving DecidableEq

def Relationship.name : Relationship → String
  | .contains => "CONTAINS"
  | .dependsOn => "DEPENDS_ON"

/-- The line that closes an element, naming its owner. -/
def Relationship.line (r : Relationship) (owner element : String) : String :=
  "Relationship: " ++ owner ++ " " ++ r.name ++ " " ++ element ++ "\n\n"

end BillOfMaterials
