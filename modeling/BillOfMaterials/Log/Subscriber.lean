import BillOfMaterials.Config.Load
import BillOfMaterials.Log.Filter

/-!
# Log subscriber

The first successful set-up decides for the whole process how events are printed and which are let
through. The environment's filter takes precedence over the configured level, if it can be read.
-/
namespace BillOfMaterials.Log

inductive Format where
  | json
  | pretty
  deriving DecidableEq

namespace Format

def parse? (name : String) : Option Format :=
  if name = "json" then some .json
  else if name = "pretty" then some .pretty
  else none

/-- What messages call the format. -/
def label : Format → String
  | .json => "JSON"
  | .pretty => "pretty"

end Format

structure Subscriber where
  format : Format
  filter : Filter

def filterVariable : String := "RUST_LOG"

def filterFor (env : Environment) (logLevel : String) : Filter :=
  ((env.text? filterVariable).bind Filter.parse?).getD (Filter.parseLossy logLevel)

def unknownFormat (name : String) : Failure :=
  .logging ("unknown log format '" ++ name ++ "', expected 'json' or 'pretty'")

def alreadySet (format : Format) : Failure :=
  .logging ("failed to initialize " ++ format.label ++
    " tracing subscriber: a global default trace dispatcher has already been set")

/-- Sets up the subscriber of a process that has the given one, if any. -/
def setUp (installed : Option Subscriber) (env : Environment) (c : GeneralConfig) :
    Except Failure Unit × Option Subscriber :=
  match Format.parse? c.logFormat with
  | none => (.error (unknownFormat c.logFormat), installed)
  | some format =>
    match installed with
    | some s => (.error (alreadySet format), some s)
    | none => (.ok (), some ⟨format, filterFor env c.logLevel⟩)

/-- Whether an event is printed. -/
def Subscriber.prints (s : Subscriber) (e : Event) : Bool := s.filter.shows e

end BillOfMaterials.Log
