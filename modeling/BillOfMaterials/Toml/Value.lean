import BillOfMaterials.Number.Double

/-!
# TOML values

A table remembers how it came about, because that decides what may still be added to it.
-/
namespace BillOfMaterials.Toml

/-- How a table came about: under a header of its own, on the way to another header, by a dotted
key, or between braces. -/
inductive TableOrigin where
  | header
  | outline
  | dotted
  | inline
  deriving DecidableEq

inductive Value where
  | string (text : String)
  | integer (value : Int)
  /-- A number whose digits are missing or not all of its base. -/
  | misspelt
  /-- The magnitude of a finite number. -/
  | float (magnitude : Number.Decimal)
  /-- Infinities and not-a-number. -/
  | nonFinite
  | boolean (value : Bool)
  /-- A date, a time, or both. -/
  | moment
  /-- `ofTables` holds for an array of tables, which further headers extend. -/
  | array (ofTables : Bool) (items : List Value)
  | table (origin : TableOrigin) (entries : List (String × Value))

abbrev Entries := List (String × Value)

instance : Inhabited Value := ⟨.nonFinite⟩

end BillOfMaterials.Toml
