import BillOfMaterials.Toml.Value

/-!
# Building TOML tables

Assignments and headers add to tables that are reached by a path of keys. Each table is defined
once: dotted keys do not extend tables that have a header, headers do not reopen tables that have
one or that dotted keys added to, and nothing extends a table between braces. A path through an
array of tables leads into the last.
-/
namespace BillOfMaterials.Toml

/-- Replaces the value of a key that is present. -/
def setEntry (key : String) (value : Value) (entries : Entries) : Entries :=
  entries.map fun entry => if entry.1 == key then (key, value) else entry

/-- What is done to a table at the end of a path, given its origin. -/
abbrev TableEdit := TableOrigin → Entries → Option (TableOrigin × Entries)

/-- Edits the table that `path` leads to, adding the tables that are missing on the way. `byKey`
tells the path of a dotted key from that of a header; the tables on it count as made by dotted keys
from then on. -/
def editAt (byKey : Bool) (edit : TableEdit) : List String → TableEdit
  | [], origin, entries => edit origin entries
  | key :: more, origin, entries =>
    match entries.lookup key with
    | none =>
      (editAt byKey edit more (if byKey then .dotted else .outline) []).map
        fun (origin', inner) => (origin, entries ++ [(key, .table origin' inner)])
    | some (.table origin' inner) =>
      if origin' = .inline ∨ (byKey ∧ origin' = .header) then none
      else (editAt byKey edit more (if byKey then .dotted else origin') inner).map
        fun (origin', inner) => (origin, setEntry key (.table origin' inner) entries)
    | some (.array true items) =>
      match items.getLast? with
      | some (.table origin' inner) =>
        (editAt byKey edit more origin' inner).map fun (origin', inner) =>
          (origin, setEntry key (.array true (items.dropLast ++ [.table origin' inner])) entries)
      | _ => none
    | some _ => none

/-- Adds a value under a new key of the table that a dotted path leads to. The table is one that
dotted keys made exactly if there is such a path. -/
def assign (path : List String) (key : String) (value : Value) : TableEdit :=
  editAt true (fun origin entries =>
    if (origin == .dotted) == path.isEmpty then none
    else if (entries.lookup key).isSome then none
    else some (origin, entries ++ [(key, value)])) path

/-- Gives a table its header. It may have been outlined by headers of tables below it. -/
def openTable (path : List String) (key : String) : TableEdit :=
  editAt false (fun origin entries =>
    match entries.lookup key with
    | none => some (origin, entries ++ [(key, .table .header [])])
    | some (.table .outline inner) => some (origin, setEntry key (.table .header inner) entries)
    | some _ => none) path

/-- Adds a table to an array of tables, which may be new. -/
def openArrayItem (path : List String) (key : String) : TableEdit :=
  editAt false (fun origin entries =>
    match entries.lookup key with
    | none => some (origin, entries ++ [(key, .array true [.table .header []])])
    | some (.array true items) =>
      some (origin, setEntry key (.array true (items ++ [.table .header []])) entries)
    | some _ => none) path

end BillOfMaterials.Toml
