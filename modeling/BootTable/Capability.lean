/-!
# BootTable — component and capability names

Components are known by the key of their definition record. Capabilities are named contracts that
a component satisfies once it completes; at most one component may provide a unique capability.
-/

namespace BootTable

/-- The name of a component, unique over all merged definition sources. -/
structure ComponentId where
  /-- The key of the component's record. -/
  name : String
deriving DecidableEq, Repr

/-- A named contract that components provide and depend on. -/
structure Capability where
  name : String
deriving DecidableEq, Repr

namespace Capability

/-- Identifies the current logical processor. -/
def logicalCpuId : Capability := ⟨"logical_cpu_id"⟩

/-- The capabilities that at most one component may provide. -/
def uniqueOnes : List Capability := [logicalCpuId]

/-- At most one component may provide the capability. -/
def isUnique (capability : Capability) : Bool :=
  uniqueOnes.contains capability

theorem isUnique_iff {capability : Capability} :
    capability.isUnique = true ↔ capability = logicalCpuId := by
  simp [isUnique, uniqueOnes]

end Capability

end BootTable
