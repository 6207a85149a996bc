import BootTable.Capability
import BootTable.Record.Fault

/-!
# BootTable — why sources make no registry

The causes for which merging sources or listing the providers of capabilities fails. Each names
the component that it is about.
-/

namespace BootTable

/-- Why definition sources make no registry, or a registry no index. -/
inductive RegistryError where
  | duplicateComponent (id : ComponentId) (origin firstOrigin : String)
  | malformedComponent (id : ComponentId) (origin : String) (fault : Fault)
  | nonUniqueCapability (capability : Capability) (first second : ComponentId)
deriving DecidableEq, Repr

namespace RegistryError

def message : RegistryError → String
  | duplicateComponent id origin firstOrigin =>
    "component " ++ Text.backquoted id.name ++ " from " ++ origin
      ++ " is already defined (first defined in " ++ firstOrigin ++ ")"
  | malformedComponent id origin fault =>
    "component " ++ Text.backquoted id.name ++ " in " ++ origin ++ " is malformed: "
      ++ fault.message
  | nonUniqueCapability capability first second =>
    "capability " ++ Text.backquoted capability.name ++ " is provided by both "
      ++ Text.backquoted first.name ++ " and " ++ Text.backquoted second.name
      ++ ", but must be unique"

def component : RegistryError → ComponentId
  | duplicateComponent id _ _ => id
  | malformedComponent id _ _ => id
  | nonUniqueCapability _ _ second => second

/-- The fault of the record, if a record is at fault. -/
def fault? : RegistryError → Option Fault
  | malformedComponent _ _ fault => some fault
  | _ => none

end RegistryError

end BootTable
