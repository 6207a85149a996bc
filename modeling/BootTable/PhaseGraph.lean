import BootTable.Log
import BootTable.Registry.Rules

/-!
# BootTable — the dependencies within a phase

The graph of a phase has the components of the phase as nodes, in first-seen order, and an edge
from every component that must complete first to the one that waits for it: from explicit
dependencies and from the providers of needed capabilities. A provider in an earlier phase needs no
edge, since phases are ordered already. An edge that is found twice counts once.
-/

namespace BootTable

/-- One component of a phase must complete before another one. -/
structure Edge where
  /-- The component that completes first. -/
  provider : ComponentId
  /-- The component that waits. -/
  consumer : ComponentId
deriving DecidableEq, Repr

/-- The components of a phase and the dependencies between them. -/
structure PhaseGraph where
  phase : Phase
  /-- The components of the phase, in first-seen order. -/
  nodes : List ComponentId
  edges : List Edge
deriving DecidableEq, Repr

namespace PhaseGraph

/-! ## Building -/

/-- The capabilities that a component needs and that nothing provides. -/
def missingNeeds (index : CapabilityIndex) (component : Component) : List Capability :=
  component.needs.toList.filter fun capability => (index.providers capability).isEmpty

/-- Fails where explicit dependencies are not defined in the phase of their component, and warns of
missing capabilities, one component after the other. -/
def examine (registry : Registry) (index : CapabilityIndex) :
    List Component → Logged PlanError Unit
  | [] => pure ()
  | component :: others => do
    .reject (registry.dependenciesFault? component)
    .reportAll ((missingNeeds index component).map (.capabilityMissing component.id))
    examine registry index others

/-- The nodes that a component waits for: its explicit dependencies, then the providers of the
capabilities that it needs. -/
def providersFor (index : CapabilityIndex) (nodes : List ComponentId) (component : Component) :
    List ComponentId :=
  firstOccurrences
    ((component.dependsOn.toList ++ component.needs.toList.flatMap index.providers).filter
      fun provider => provider ∈ nodes)

def edgesTo (index : CapabilityIndex) (nodes : List ComponentId) (component : Component) :
    List Edge :=
  (providersFor index nodes component).map fun provider => ⟨provider, component.id⟩

def build (registry : Registry) (index : CapabilityIndex) (phase : Phase) :
    Logged PlanError PhaseGraph := do
  let members := registry.inPhase phase
  let nodes := members.map Component.id
  let edges := members.flatMap (edgesTo index nodes)
  examine registry index members
  .report (.graphBuilt phase nodes.length edges.length)
  return { phase, nodes, edges }

/-! ## Reading -/

/-- The components that a component waits for, in the order in which the edges were found. -/
def prerequisites (graph : PhaseGraph) (id : ComponentId) : List ComponentId :=
  (graph.edges.filter fun edge => edge.consumer = id).map Edge.provider

def dependents (graph : PhaseGraph) (id : ComponentId) : List ComponentId :=
  (graph.edges.filter fun edge => edge.provider = id).map Edge.consumer

/-- The number of components that a component of the phase waits for. -/
def valence? (graph : PhaseGraph) (id : ComponentId) : Option Nat :=
  if id ∈ graph.nodes then some (graph.prerequisites id).length else none

/-- The components that wait for nothing, in first-seen order. -/
def entryNodes (graph : PhaseGraph) : List ComponentId :=
  graph.nodes.filter fun id => (graph.prerequisites id).isEmpty

end PhaseGraph

end BootTable
