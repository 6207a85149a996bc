import BootTable.Capability
import BootTable.DistinctList
import BootTable.Importance
import BootTable.Phase
import BootTable.Routine

/-!
# BootTable — components

A component is a unit of kernel initialization work. A global component runs once; a per-CPU
component runs once on the bootstrap processor and once on every application processor, and only
its application-processor routine may need capabilities of its own.
-/

namespace BootTable

/-- Where a component runs, and by which routines. -/
inductive Execution where
  | global (routine : Routine)
  /-- Once on every processor. The last field lists the capabilities that only the
  application-processor routine needs. -/
  | perCpu (bootstrap ap : Routine) (apNeeds : DistinctList Capability)
deriving DecidableEq

namespace Execution

/-- The routine that the bootstrap processor runs. -/
def bootstrap : Execution → Routine
  | global routine => routine
  | perCpu bootstrap _ _ => bootstrap

/-- The routine that application processors run; of a global component, its only routine. -/
def ap : Execution → Routine
  | global routine => routine
  | perCpu _ ap _ => ap

/-- The capabilities that only the application-processor routine needs. -/
def apNeeds : Execution → DistinctList Capability
  | global _ => .empty
  | perCpu _ _ needs => needs

/-- The component runs once on every processor. -/
def isPerCpu : Execution → Bool
  | global _ => false
  | perCpu _ _ _ => true

end Execution

/-- A unit of kernel initialization work. -/
structure Component where
  id : ComponentId
  displayName : String
  /-- The capabilities it needs must have providers. -/
  required : Bool
  phase : Phase
  execution : Execution
  provides : DistinctList Capability
  /-- Components of the same phase that must complete first. -/
  dependsOn : DistinctList ComponentId
  needs : DistinctList Capability
  importance : Importance
deriving DecidableEq

namespace Component

/-- It runs once on every processor. -/
def isPerCpu (component : Component) : Bool :=
  component.execution.isPerCpu

/-- The capabilities that only its application-processor routine needs. -/
def apNeeds (component : Component) : DistinctList Capability :=
  component.execution.apNeeds

/-- The capabilities that either of its routines needs, those of both routines first. -/
def consumed (component : Component) : List Capability :=
  component.needs.toList ++ component.apNeeds.toList

/-- Once it completes, processors are numbered. -/
def providesLogicalCpuId (component : Component) : Bool :=
  Capability.logicalCpuId ∈ component.provides

/-- A global component needs nothing for application processors alone. -/
theorem isPerCpu_of_mem_apNeeds {component : Component} {capability : Capability}
    (h : capability ∈ component.apNeeds) : component.isPerCpu = true := by
  unfold apNeeds at h
  unfold isPerCpu
  cases hexec : component.execution with
  | global routine =>
    rw [hexec] at h
    exact absurd h (by simp [Execution.apNeeds, DistinctList.empty, ← DistinctList.mem_toList])
  | perCpu bootstrap ap needs => rfl

end Component

end BootTable
