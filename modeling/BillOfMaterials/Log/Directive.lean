import BillOfMaterials.Log.Pattern
import BillOfMaterials.Log.Verbosity
import BillOfMaterials.Text.Utf8

/-!
# Log directives

A directive sets how verbose the events of a target may be, or of all targets. It can be narrowed to
events that have a field. One that asks for a span, or for the value of a field, is about events
within spans; here no event is within one.
-/
namespace BillOfMaterials.Log

/-- What a directive asks of a field: that an event has it, or what its value is. -/
structure FieldTest where
  name : String
  value : Option String

/-- A verbosity for the events whose target begins with `target`; without a target, for all. -/
structure Directive where
  target : Option String := none
  span : Option String := none
  field : Option FieldTest := none
  verbosity : Verbosity := some .trace

namespace Directive

def isAboutSpans (d : Directive) : Bool :=
  d.span.isSome || d.field.any fun f => f.value.isSome

/-- The message is a field like those that carry the values. -/
def hasField (e : Event) (name : String) : Bool :=
  name == "message" || e.fields.any fun f => f.1 == name

def fits (d : Directive) (e : Event) : Bool :=
  !d.isAboutSpans &&
    (d.target.all fun target => target.toList.isPrefixOf e.target.toList) &&
    d.field.all fun f => hasField e f.name

/-- Whether `d` says more about its events than `b`, or as much: it has the longer target, or with
one target the field, or the later field. -/
def isAsSpecific (b d : Directive) : Bool :=
  let reach (x : Directive) : Nat := x.target.elim 0 fun target => target.length + 1
  let field (x : Directive) : String := x.field.elim "" FieldTest.name
  reach b < reach d || (reach b == reach d && field b ≤ field d)

/-! ## Reading -/

/-- Digits with or without a point, and an exponent. -/
def isDecimal (text : List Char) : Bool :=
  let mantissa := text.takeWhile fun c => c != 'e' && c != 'E'
  let exponent := (text.dropWhile fun c => c != 'e' && c != 'E').drop 1
  let whole := mantissa.takeWhile (· != '.')
  let fraction := (mantissa.dropWhile (· != '.')).drop 1
  let power := if exponent.head? = some '+' ∨ exponent.head? = some '-' then exponent.drop 1
    else exponent
  !(whole ++ fraction).isEmpty && (whole ++ fraction).all Char.isDigit &&
    power.all Char.isDigit && (mantissa.length == text.length || !power.isEmpty)

def isNumber (text : String) : Bool :=
  let unsigned := if text.startsWith "+" || text.startsWith "-" then text.toList.drop 1
    else text.toList
  isDecimal unsigned ||
    ["inf", "infinity", "nan"].contains (String.ofList (unsigned.map Char.toLower))

/-- Reads a test of a field, whose value is a number or a pattern; a second equals sign ends it. -/
def fieldTest? (text : String) : Option FieldTest :=
  match text.splitOn "=" with
  | name :: value :: _ =>
    if isNumber value || isPattern value then some ⟨name, some value⟩ else none
  | _ => some ⟨text, none⟩

/-- The characters that a directive without brackets in front can begin with. -/
def opens (c : Char) : Bool := Text.isAlphanumeric c || c == '-' || c == '_' || c == ':'

def trim (text : List Char) : List Char :=
  ((text.dropWhile Text.isBlank).reverse.dropWhile Text.isBlank).reverse

/-- A directive as written, and what is left of it without the blanks on its outside. Places are
told in the trimmed text, and what they bound is cut out of the text as written. -/
structure Draft where
  written : List UInt8
  trimmed : List Char

namespace Draft

def ofText (text : String) : Draft := ⟨Text.Utf8.encode text, trim text.toList⟩

/-- The number of bytes in front of a part that the trimmed text ends with. -/
def place (d : Draft) (ending : List Char) : Nat :=
  (Text.Utf8.encode (String.ofList d.trimmed)).length -
    (Text.Utf8.encode (String.ofList ending)).length

/-- The text from the start of `ending` on; `none` if a character is cut apart. -/
def cutFrom? (d : Draft) (ending : List Char) : Option String :=
  Text.Utf8.decode? (d.written.drop (d.place ending))

/-- The text between the starts of two endings. -/
def cut? (d : Draft) (ending later : List Char) : Option String :=
  Text.Utf8.decode? ((d.written.take (d.place later)).drop (d.place ending))

end Draft

/-- Reads the verbosity behind an equals sign; an empty one lets everything through. -/
def readVerbosity (d : Draft) (read : Directive) (ending : List Char) : Option Directive := do
  let text ← d.cutFrom? ending
  let verbosity ← if text = "" then some (some .trace) else verbosity? text
  some { read with verbosity }

/-- Reads what follows the brackets. -/
def readRest (d : Draft) (read : Directive) : List Char → Option Directive
  | [] => some read
  | '=' :: ending => readVerbosity d read ending
  | _ => none

/-- Reads a field and both brackets behind it. -/
def readField (d : Draft) (read : Directive) (ending : List Char) : Option Directive :=
  let closing := ending.dropWhile (· != '}')
  match closing with
  | '}' :: ']' :: rest => do
    let text ← d.cut? ending closing
    if text = "" then none
    else
      let field ← fieldTest? text
      readRest d { read with field := some field } rest
  | _ => none

/-- Reads a span, which has a name, a field in braces or both. Without a field the name can be
empty. -/
def readSpan (d : Draft) (read : Directive) (ending : List Char) : Option Directive :=
  let closing := ending.dropWhile fun c => c != ']' && c != '{'
  match closing with
  | ']' :: rest => do
    let name ← d.cut? ending closing
    readRest d { read with span := some name } rest
  | '{' :: rest => do
    let name ← d.cut? ending closing
    readField d { read with span := if name = "" then none else some name } rest
  | _ => none

/-- A directive is a verbosity, or a target, a span or both with or without a verbosity. A text that
is no verbosity is a target. -/
def parse? (text : String) : Option Directive :=
  let d := Draft.ofText text
  match d.trimmed with
  | [] => none
  | '[' :: ending => readSpan d {} ending
  | c :: _ =>
    let closing := d.trimmed.dropWhile fun c => c != '=' && c != '['
    if !opens c then none
    else match closing with
      | '=' :: ending => do
        let target ← d.cut? d.trimmed closing
        readVerbosity d { target := some target } ending
      | '[' :: ending => do
        let target ← d.cut? d.trimmed closing
        readSpan d { target := some target } ending
      | _ => match verbosity? text with
        | some verbosity => some { verbosity }
        | none => some { target := some text }

end Directive
end BillOfMaterials.Log
