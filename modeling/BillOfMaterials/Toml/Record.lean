import BillOfMaterials.Toml.Value

/-!
# Records in TOML

A record is described by its fields in order, each with a reader. It is read from a table, where
unknown keys are passed over, or from an array of its first fields in order, of which surplus items
are not looked at. A date stands for a table without known keys.
-/
namespace BillOfMaterials.Toml

/-- A field of records of type `σ`. `read` reads a value into a record. -/
structure RecordField (σ : Type) where
  name : String
  read : σ → Value → Option σ

structure Record (σ : Type) where
  initial : σ
  fields : List (RecordField σ)

/-- An integer of at most 128 bits, signed or not. -/
def isStorable (n : Int) : Bool := -(Int.pow 2 127) ≤ n && n < Int.pow 2 128

mutual

/-- A value can be passed over if all of its numbers are well spelt and can be stored. -/
def Value.isReadable : Value → Bool
  | .integer n => isStorable n
  | .misspelt => false
  | .float magnitude => magnitude.fits
  | .array _ items => allReadable items
  | .table _ entries => entriesReadable entries
  | _ => true

def allReadable : List Value → Bool
  | [] => true
  | v :: rest => v.isReadable && allReadable rest

def entriesReadable : List (String × Value) → Bool
  | [] => true
  | (_, v) :: rest => v.isReadable && entriesReadable rest

end

namespace Record

variable {σ : Type}

def readEntry (r : Record σ) (value : σ) (entry : String × Value) : Option σ :=
  match r.fields.find? (·.name == entry.1) with
  | some field => field.read value entry.2
  | none => if entry.2.isReadable then some value else none

def readEntries (r : Record σ) (entries : Entries) : Option σ :=
  entries.foldlM r.readEntry r.initial

def read (r : Record σ) : Value → Option σ
  | .table _ entries => r.readEntries entries
  | .array _ items =>
    (r.fields.zip items).foldlM (fun value (field, item) => field.read value item) r.initial
  | .moment => some r.initial
  | _ => none

end Record

namespace RecordField

variable {σ : Type}

def ofString (name : String) (set : σ → String → σ) : RecordField σ where
  name
  read
    | value, .string text => some (set value text)
    | _, _ => none

def ofRecord {τ : Type} (name : String) (r : Record τ) (set : σ → τ → σ) : RecordField σ where
  name
  read value v := (r.read v).map (set value)

end RecordField
end BillOfMaterials.Toml
