import BootTable.Phase
import BootTable.Registry.Error

/-!
# BootTable — why a registry has no plan

Any of these causes would make the boot sequence unsafe. None has a remedy, and nothing later runs.
-/

namespace BootTable

/-- Why the components of a registry cannot be ordered. -/
inductive PlanError where
  | registry (cause : RegistryError)
  | unknownDependency (component dependency : ComponentId)
  | crossPhaseDependency (component : ComponentId) (phase : Phase) (dependency : ComponentId)
      (dependencyPhase : Phase)
  | missingRequiredCapability (component : ComponentId) (capability : Capability)
  /-- The dependencies within a phase run in a circle: the members of one circle, and everything
  that could not be ordered. -/
  | dependencyCycle (phase : Phase) (cycle unresolved : List ComponentId)
  /-- A capability is still provided after the phase of its first consumer. -/
  | capabilityOrdering (capability : Capability) (provider : ComponentId) (providerPhase : Phase)
      (consumer : ComponentId) (consumerPhase : Phase)
  /-- A capability that application processors need is not initialized globally before they
  start. -/
  | unsatisfiedApDependency (component : ComponentId) (capability : Capability)
deriving DecidableEq, Repr

namespace PlanError

def message : PlanError → String
  | registry cause => cause.message
  | unknownDependency component dependency =>
    "component " ++ Text.backquoted component.name ++ " depends on "
      ++ Text.backquoted dependency.name ++ ", which is not defined"
  | crossPhaseDependency component phase dependency dependencyPhase =>
    "component " ++ Text.backquoted component.name ++ " in phase " ++ phase.key ++ " depends on "
      ++ Text.backquoted dependency.name ++ " in phase " ++ dependencyPhase.key
      ++ "; explicit dependencies must share a phase"
  | missingRequiredCapability component capability =>
    "required component " ++ Text.backquoted component.name ++ " depends on capability "
      ++ Text.backquoted capability.name ++ ", which no component provides"
  | dependencyCycle phase cycle _ =>
    "dependency cycle in phase " ++ phase.key ++ " between "
      ++ ", ".intercalate (cycle.map fun id => Text.backquoted id.name)
  | capabilityOrdering capability provider providerPhase consumer consumerPhase =>
    "capability " ++ Text.backquoted capability.name ++ " is provided by "
      ++ Text.backquoted provider.name ++ " in phase " ++ providerPhase.key
      ++ ", after its first use by " ++ Text.backquoted consumer.name ++ " in phase "
      ++ consumerPhase.key
  | unsatisfiedApDependency component capability =>
    "component " ++ Text.backquoted component.name
      ++ " specifies AP-specific dependency on capability " ++ Text.backquoted capability.name
      ++ ", which is not globally initialized before SMP bringup"

def isCycle : PlanError → Bool
  | dependencyCycle .. => true
  | _ => false

/-- The component that the cause is reported against. -/
def component? : PlanError → Option ComponentId
  | registry cause => some cause.component
  | unknownDependency component _ => some component
  | crossPhaseDependency component _ _ _ => some component
  | missingRequiredCapability component _ => some component
  | unsatisfiedApDependency component _ => some component
  | capabilityOrdering _ provider _ _ _ => some provider
  | dependencyCycle _ cycle _ => cycle.head?

end PlanError

end BootTable
