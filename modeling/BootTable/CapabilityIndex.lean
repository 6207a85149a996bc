import BootTable.Registry
import BootTable.Registry.Error

/-!
# BootTable — the capability index

Lists, for every capability that is provided, the components that provide it. Capabilities stand in
the order in which they were first provided, providers in first-seen order. Building the index
fails where a unique capability gains a second provider.
-/

namespace BootTable

/-- The providers of every provided capability. -/
structure CapabilityIndex where
  entries : List (Capability × List ComponentId)
deriving DecidableEq, Repr

namespace CapabilityIndex

def empty : CapabilityIndex := ⟨[]⟩

/-- The providers of a capability; one that nothing provides has none. -/
def providers (index : CapabilityIndex) (capability : Capability) : List ComponentId :=
  (index.entries.lookup capability).getD []

def contains (index : CapabilityIndex) (capability : Capability) : Bool :=
  (index.entries.lookup capability).isSome

def size (index : CapabilityIndex) : Nat :=
  index.entries.length

/-- Adds a provider at the end of the providers of a capability. -/
def addTo (capability : Capability) (provider : ComponentId) :
    List (Capability × List ComponentId) → List (Capability × List ComponentId)
  | [] => [(capability, [provider])]
  | entry :: others =>
    if entry.1 = capability then (entry.1, entry.2 ++ [provider]) :: others
    else entry :: addTo capability provider others

/-- Notes that a component provides a capability. -/
def note (provider : ComponentId) (index : CapabilityIndex) (capability : Capability) :
    Except RegistryError CapabilityIndex :=
  match capability.isUnique, index.providers capability with
  | true, first :: _ => .error (.nonUniqueCapability capability first provider)
  | _, _ => .ok ⟨addTo capability provider index.entries⟩

/-- Notes everything that a component provides. -/
def noteComponent (index : CapabilityIndex) (component : Component) :
    Except RegistryError CapabilityIndex :=
  component.provides.toList.foldlM (note component.id) index

/-- Lists the providers of all capabilities of a registry. -/
def build (registry : Registry) : Except RegistryError CapabilityIndex :=
  registry.components.foldlM noteComponent empty

end CapabilityIndex

end BootTable
