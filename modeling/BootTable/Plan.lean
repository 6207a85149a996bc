import BootTable.PhaseGraph.Sort

/-!
# BootTable — the plan

The order of every phase, in the precedence of the phases. Scheduling lists the providers of
capabilities, checks the rules about the whole registry and orders the phases one after the other;
the first stage that fails decides the failure.
-/

namespace BootTable

/-- The order of one phase. -/
structure PhaseOrder where
  phase : Phase
  /-- Its components in execution order. -/
  components : List ComponentId
deriving DecidableEq, Repr

/-- The order of every phase. -/
structure Plan where
  phases : List PhaseOrder
deriving DecidableEq, Repr

namespace Plan

def empty : Plan := ⟨[]⟩

/-- The order of one phase; a phase that the plan does not have has no components. -/
def componentsOf (plan : Plan) (phase : Phase) : List ComponentId :=
  ((plan.phases.find? fun order => order.phase = phase).map PhaseOrder.components).getD []

def order (plan : Plan) : List ComponentId :=
  plan.phases.flatMap PhaseOrder.components

/-- The position of a component in that order, counted from zero. -/
def position? (plan : Plan) (id : ComponentId) : Option Nat :=
  plan.order.findIdx? fun other => other = id

def size (plan : Plan) : Nat :=
  plan.order.length

end Plan

def orderPhase (registry : Registry) (index : CapabilityIndex) (phase : Phase) :
    Logged PlanError PhaseOrder := do
  let graph ← PhaseGraph.build registry index phase
  let components ← .ofExcept graph.sort
  .report (.phaseOrdered phase components)
  return { phase, components }

def orderPhases (registry : Registry) (index : CapabilityIndex) :
    List Phase → Logged PlanError (List PhaseOrder)
  | [] => pure []
  | phase :: others => do
    let order ← orderPhase registry index phase
    let orders ← orderPhases registry index others
    return order :: orders

/-- Checks a registry and orders all of its phases. -/
def schedule (registry : Registry) : Logged PlanError Plan := do
  let index ← .ofExcept ((CapabilityIndex.build registry).mapError PlanError.registry)
  .report (.indexBuilt index.size)
  .reject (registry.fault? index)
  .report (.registryValidated registry.size)
  let phases ← orderPhases registry index Phase.all
  let plan : Plan := ⟨phases⟩
  .report (.planScheduled plan.size)
  return plan

end BootTable
