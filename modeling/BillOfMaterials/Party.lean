/-!
# Parties

Who supplies or made a package. The constructors fill in one of the two names.
-/
namespace BillOfMaterials

structure Party where
  person : String := ""
  organization : String := ""
  deriving DecidableEq, Inhabited

namespace Party

def ofPerson (name : String) : Party := ⟨name, ""⟩

def ofOrganization (name : String) : Party := ⟨"", name⟩

def isEmpty (p : Party) : Bool := p.person.isEmpty && p.organization.isEmpty

end Party
end BillOfMaterials
