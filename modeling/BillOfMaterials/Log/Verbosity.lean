import BillOfMaterials.Event

/-!
# Verbosity

Which levels of events are let through: those up to a limit, or none. A verbosity is written as a
number or by the name of its limit.
-/
namespace BillOfMaterials.Log

/-- How much is let through: nothing, or all events up to a level. -/
abbrev Verbosity := Option Level

def rank : Level → Nat
  | .error => 1
  | .warn => 2
  | .info => 3
  | .debug => 4
  | .trace => 5

def Verbosity.allows (v : Verbosity) (level : Level) : Bool :=
  match v with
  | none => false
  | some limit => rank level ≤ rank limit

/-- A verbosity by its number, from 0 for none to 5 for all. -/
def numbered? : Nat → Option Verbosity
  | 0 => some none
  | 1 => some (some .error)
  | 2 => some (some .warn)
  | 3 => some (some .info)
  | 4 => some (some .debug)
  | 5 => some (some .trace)
  | _ => none

/-- A decimal number, with a plus sign or without. -/
def number? (text : List Char) : Option Nat :=
  let ds := match text with
    | '+' :: rest => rest
    | _ => text
  if !ds.isEmpty && ds.all Char.isDigit then
    some (ds.foldl (fun n d => n * 10 + (d.toNat - 48)) 0)
  else none

/-- A verbosity by its number or its name in letters of either case; an empty name means errors. -/
def verbosity? (text : String) : Option Verbosity :=
  let named := String.ofList (text.toList.map Char.toLower)
  match (number? text.toList).bind numbered? with
  | some v => some v
  | none =>
    if named = "" ∨ named = "error" then some (some .error)
    else if named = "warn" then some (some .warn)
    else if named = "info" then some (some .info)
    else if named = "debug" then some (some .debug)
    else if named = "trace" then some (some .trace)
    else if named = "off" then some none
    else none

end BillOfMaterials.Log
