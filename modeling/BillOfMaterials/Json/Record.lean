import BillOfMaterials.Json.Mismatch
import BillOfMaterials.Json.Skip
import BillOfMaterials.SortedMap

/-!
# JSON records

A record is described by its fields in order, each with its name, a reader and a writer. It is read
from an object that may leave fields out and hold others, or from an array of its first fields in
order; what is left out keeps its initial value. It is written as an object of all fields.
-/
namespace BillOfMaterials.Json

/-- A field of records of type `σ`. `read` reads a value into a record. -/
structure RecordField (σ : Type) where
  name : String
  read : σ → List Char → Parsed σ
  write : σ → List Char

structure Record (σ : Type) where
  initial : σ
  fields : List (RecordField σ)

/-- The closing bracket of an array all of whose wanted items have been read. -/
def closeArray {σ : Type} (value : σ) (text : List Char) : Parsed σ :=
  match skipBlank text with
  | [] => .error .truncated
  | c :: rest => if c = ']' then .ok (value, rest) else .error .illFormed

/-- What separates the items of an array or the members of an object: nothing in front of the first
one, a comma elsewhere. The result is `none` in front of the closing character. -/
def nextItem (close : Char) (first : Bool) (text : List Char) :
    Except ReadError (Option (List Char)) :=
  match skipBlank text with
  | [] => .error .truncated
  | c :: rest =>
    if c = close then .ok none
    else if first then .ok (some (c :: rest))
    else if c = ',' then
      match skipBlank rest with
      | [] => .error .truncated
      | d :: more => if d = close then .error .illFormed else .ok (some (d :: more))
    else .error .illFormed

/-- Reads the items of an array into the fields, one each. -/
def readItems {σ : Type} (first : Bool) : List (RecordField σ) → σ → List Char → Parsed σ
  | [], value, text => closeArray value text
  | field :: more, value, text =>
    match nextItem ']' first text with
    | .error e => .error e
    | .ok none => closeArray value text
    | .ok (some item) =>
      match field.read value item with
      | .error e => .error e
      | .ok (value, rest) => readItems false more value rest

/-- Reads the colon between a key and its value. -/
def readColon (text : List Char) : Except ReadError (List Char) :=
  match skipBlank text with
  | [] => .error .truncated
  | c :: rest => if c = ':' then .ok rest else .error .illFormed

/-- Reads the members of an object with an action on each key and the text behind it. At most
`fuel` members are read; a text has fewer members than characters. -/
def readMembers {σ : Type} (member : σ → String → List Char → Parsed σ) :
    (fuel : Nat) → (first : Bool) → σ → List Char → Parsed σ
  | 0, _, _, _ => .error .truncated
  | fuel + 1, first, value, text =>
    match nextItem '}' first text with
    | .error e => .error e
    | .ok none => .ok (value, (skipBlank text).drop 1)
    | .ok (some ('"' :: rest)) =>
      match readBody [] rest with
      | .error e => .error e
      | .ok (key, rest) =>
        match member value key rest with
        | .error e => .error e
        | .ok (value, rest) => readMembers member fuel false value rest
    | .ok (some _) => .error .illFormed

/-- A member of a record: a known field once, anything under another key. The state holds the names
seen so far. -/
def Record.readMember {σ : Type} (r : Record σ) (state : List String × σ) (key : String)
    (text : List Char) : Parsed (List String × σ) :=
  match r.fields.find? (·.name == key) with
  | some field =>
    if state.1.contains key then .error .mismatched
    else match readColon text with
      | .error e => .error e
      | .ok rest =>
        match field.read state.2 rest with
        | .error e => .error e
        | .ok (value, rest) => .ok ((key :: state.1, value), rest)
  | none =>
    match readColon text with
    | .error e => .error e
    | .ok rest =>
      match skipValue rest with
      | .error e => .error e
      | .ok rest => .ok (state, rest)

def Record.read {σ : Type} (r : Record σ) (text : List Char) : Parsed σ :=
  match skipBlank text with
  | [] => .error .truncated
  | '[' :: rest => readItems true r.fields r.initial rest
  | '{' :: rest =>
    match readMembers r.readMember (rest.length + 1) true ([], r.initial) rest with
    | .error e => .error e
    | .ok ((_, value), rest) => .ok (value, rest)
  | other => .error (valueFault other)

def Record.write {σ : Type} (r : Record σ) (value : σ) : List Char :=
  '{' :: [','].intercalate
    (r.fields.map fun f => writeString f.name ++ ':' :: f.write value) ++ ['}']

/-- Reads a whole text, with nothing but blanks around the record. -/
def Record.decode {σ : Type} (r : Record σ) (text : String) : Except ReadError σ :=
  match r.read text.toList with
  | .error e => .error e
  | .ok (value, rest) => if (skipBlank rest).isEmpty then .ok value else .error .illFormed

def Record.encode {σ : Type} (r : Record σ) (value : σ) : String := String.ofList (r.write value)

def readString (text : List Char) : Parsed String :=
  match skipBlank text with
  | '"' :: rest => readBody [] rest
  | other => .error (valueFault other)

/-- Reads an object of strings; the last of several equal keys counts. -/
def readStringMap (text : List Char) : Parsed (SortedMap String) :=
  match skipBlank text with
  | '{' :: rest =>
    readMembers (fun m key text =>
      match readColon text with
      | .error e => .error e
      | .ok rest =>
        match readString rest with
        | .error e => .error e
        | .ok (value, rest) => .ok (m.insert key value, rest)) (rest.length + 1) true .empty rest
  | other => .error (valueFault other)

def writeStringMap (m : SortedMap String) : List Char :=
  '{' :: [','].intercalate
    (m.entries.map fun entry => writeString entry.1 ++ ':' :: writeString entry.2) ++ ['}']

namespace RecordField

variable {σ : Type}

def ofString (name : String) (get : σ → String) (set : σ → String → σ) : RecordField σ where
  name
  read value text := (readString text).map fun (s, rest) => (set value s, rest)
  write value := writeString (get value)

def ofStringMap (name : String) (get : σ → SortedMap String) (set : σ → SortedMap String → σ) :
    RecordField σ where
  name
  read value text := (readStringMap text).map fun (m, rest) => (set value m, rest)
  write value := writeStringMap (get value)

def ofRecord {τ : Type} (name : String) (r : Record τ) (get : σ → τ) (set : σ → τ → σ) :
    RecordField σ where
  name
  read value text := (r.read text).map fun (v, rest) => (set value v, rest)
  write value := r.write (get value)

end RecordField
end BillOfMaterials.Json
