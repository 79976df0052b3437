import BillOfMaterials.Event
import BillOfMaterials.Path

/-!
# Package options

The working directory from which the paths of source files are told. A path below it is told by
what is left behind it; any other is told as it is, with a warning. Without a working directory all
paths are told as they are.
-/
namespace BillOfMaterials

structure Options where
  workDir : Path := ⟨[]⟩
  deriving DecidableEq

namespace Options

instance : Inhabited Options := ⟨{}⟩

/-- The text of the working directory, if it has one that loses nothing. -/
def workDirText? (o : Options) : Option String := Text.Utf8.decode? o.workDir.bytes

def relativePath (o : Options) (path : Path) : String × List Event :=
  if o.workDir.isEmpty then (path.display, [])
  else match path.rest? o.workDir with
    | some rest => (rest.display, [])
    | none => (path.display, [.outsideWorkDir path.display o.workDir.display])

end Options
end BillOfMaterials
