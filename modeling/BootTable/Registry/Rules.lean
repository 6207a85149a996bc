import BootTable.CapabilityIndex
import BootTable.Plan.Error

/-!
# BootTable — rules about a whole registry

Four rules span phases, so that no graph of one phase can express them: capabilities are provided
no later than they are first used; explicit dependencies are defined and share a phase; what a
required component needs is provided; what application processors need is initialized globally
before they start. Each rule is a function that finds the first breach of it, if there is one.
-/

namespace BootTable

/-! ## Capabilities and phases -/

/-- A component and its phase, as the earliest or latest of its kind. -/
structure Mark where
  phase : Phase
  component : ComponentId
deriving DecidableEq, Repr

def Component.mark (component : Component) : Mark :=
  { phase := component.phase, component := component.id }

/-- It runs once, and before application processors start. -/
def Component.initializesGlobally (component : Component) : Bool :=
  !component.isPerCpu && component.phase.precedesSmp

/-- Marks by capability, in the order in which the capabilities were first marked. -/
abbrev Marks := List (Capability × Mark)

namespace Marks

/-- Marks a capability: the mark it has stays unless the new phase is better. -/
def keep (better : Phase → Phase → Bool) (mark : Mark) (capability : Capability) : Marks → Marks
  | [] => [(capability, mark)]
  | entry :: others =>
    if entry.1 = capability then
      (entry.1, if better mark.phase entry.2.phase then mark else entry.2) :: others
    else entry :: keep better mark capability others

/-- Marks every capability that the components mention, one component after the other. -/
def collect (better : Phase → Phase → Bool) (mentioned : Component → List Capability)
    (components : List Component) : Marks :=
  components.foldl (fun marks component =>
    (mentioned component).foldl (fun marks capability =>
      keep better component.mark capability marks) marks) []

end Marks

namespace Registry

/-- The earliest consumer of every consumed capability; of consumers of one phase the first seen. -/
def firstUses (registry : Registry) : Marks :=
  Marks.collect (fun new old => new < old) Component.consumed registry.components

/-- The latest provider of every provided capability; of providers of one phase the first seen. -/
def lastProviders (registry : Registry) : Marks :=
  Marks.collect (fun new old => old < new) (fun component => component.provides.toList)
    registry.components

/-- A capability that is provided in a phase later than that of its earliest consumer. -/
def capabilityOrderFault? (registry : Registry) : Option PlanError :=
  let providers := registry.lastProviders
  registry.firstUses.findSome? fun (capability, consumer) =>
    match providers.lookup capability with
    | none => none
    | some provider =>
      if consumer.phase < provider.phase then
        some (.capabilityOrdering capability provider.component provider.phase
          consumer.component consumer.phase)
      else none

/-! ## Explicit dependencies -/

/-- What is wrong with a dependency of a component: it is not defined, or of another phase. -/
def dependencyFault? (registry : Registry) (component : Component) (dependency : ComponentId) :
    Option PlanError :=
  match registry.find? dependency with
  | none => some (.unknownDependency component.id dependency)
  | some target =>
    if target.phase = component.phase then none
    else some (.crossPhaseDependency component.id component.phase dependency target.phase)

/-- What is wrong with the first faulty dependency of a component. -/
def dependenciesFault? (registry : Registry) (component : Component) : Option PlanError :=
  component.dependsOn.toList.findSome? (registry.dependencyFault? component)

/-- The first explicit dependency that is not defined or of another phase. -/
def explicitFault? (registry : Registry) : Option PlanError :=
  registry.components.findSome? registry.dependenciesFault?

/-! ## Needs of required components -/

/-- The first capability that a required component needs and nothing provides. -/
def requiredFault? (registry : Registry) (index : CapabilityIndex) : Option PlanError :=
  registry.components.findSome? fun component =>
    if component.required then
      (component.needs.toList.find? fun capability => !index.contains capability).map
        (.missingRequiredCapability component.id)
    else none

/-! ## Needs of application processors -/

/-- The capabilities that global components provide before application processors start. -/
def globalCapabilities (registry : Registry) : DistinctList Capability :=
  .ofList ((registry.components.filter Component.initializesGlobally).flatMap fun component =>
    component.provides.toList)

/-- The first capability that application processors need and that is not initialized globally. -/
def apFault? (registry : Registry) : Option PlanError :=
  let initialized := registry.globalCapabilities
  registry.components.findSome? fun component =>
    (component.apNeeds.toList.find? fun capability => capability ∉ initialized).map
      (.unsatisfiedApDependency component.id)

/-- The first breach of any rule; the rules are tried one after the other. -/
def fault? (registry : Registry) (index : CapabilityIndex) : Option PlanError :=
  registry.capabilityOrderFault?
    <|> registry.explicitFault?
    <|> registry.requiredFault? index
    <|> registry.apFault?

end Registry

end BootTable
