import BillOfMaterials.Log.Directive

/-!
# Log filters

A filter is a comma-separated list of directives. Of those that fit an event the most specific one
counts, and of equals the last. Events that no directive fits are silent, and a list without
directives lets errors through.
-/
namespace BillOfMaterials.Log

structure Filter where
  directives : List Directive

namespace Filter

/-- The directives in a text; there is always one. -/
def ofDirectives (directives : List Directive) : Filter :=
  ⟨if directives.isEmpty then [{ verbosity := some .error }] else directives⟩

/-- The parts of a text between commas, empty ones left out. -/
def parts (text : String) : List String := (text.splitOn ",").filter (· ≠ "")

/-- The filter of a text all of whose parts are directives. -/
def parse? (text : String) : Option Filter :=
  ((parts text).mapM Directive.parse?).map ofDirectives

/-- The filter of those parts of a text that are directives. -/
def parseLossy (text : String) : Filter :=
  ofDirectives ((parts text).filterMap Directive.parse?)

/-- The more specific of two directives that fit an event; of equals the later. -/
def moreSpecific (best : Option Directive) (d : Directive) : Option Directive :=
  match best with
  | none => some d
  | some b => some (if b.isAsSpecific d then d else b)

def shows (f : Filter) (e : Event) : Bool :=
  match (f.directives.filter (·.fits e)).foldl moreSpecific none with
  | none => false
  | some d => d.verbosity.allows e.level

end Filter
end BillOfMaterials.Log
