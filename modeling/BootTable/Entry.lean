import BootTable.Entry.Flags
import BootTable.Plan

/-!
# BootTable — table entries

The entries of the table: for every phase a marker that opens it and then its components. One pass
over the entries decides from where on processors are numbered: once a component that provides the
capability has been passed, every later entry carries the flag, markers too; the providing entry
itself does not.
-/

namespace BootTable

/-- What a table entry stands for. -/
inductive EntryKind where
  | marker (phase : Phase)
  | component (id : ComponentId) (bootstrap ap : Routine)
deriving DecidableEq

/-- An entry of the table. -/
structure Entry where
  name : String
  kind : EntryKind
  flags : EntryFlags
  importance : Importance
deriving DecidableEq

namespace Entry

def markerImportance : Importance := .important

def ofPhase (phase : Phase) : Entry :=
  { name := phase.displayName
    kind := .marker phase
    flags := .phaseMarker
    importance := markerImportance }

def ofComponent (component : Component) : Entry :=
  { name := component.displayName
    kind := .component component.id component.execution.bootstrap component.execution.ap
    flags := (EntryFlags.empty.set .required component.required).set .perCpu component.isPerCpu
    importance := component.importance }

def isMarker (entry : Entry) : Bool :=
  match entry.kind with
  | .marker _ => true
  | .component .. => false

/-- The routines of a component: that of the bootstrap processor and that of the others. -/
def routines? (entry : Entry) : Option (Routine × Routine) :=
  match entry.kind with
  | .marker _ => none
  | .component _ bootstrap ap => some (bootstrap, ap)

end Entry

/-- The entries of a phase, each with whether processors are numbered once it completes. A
component that the registry does not know is left out. -/
def phaseEntries (registry : Registry) (order : PhaseOrder) : List (Entry × Bool) :=
  (Entry.ofPhase order.phase, false) ::
    (order.components.filterMap registry.find?).map fun component =>
      (Entry.ofComponent component, component.providesLogicalCpuId)

/-- Adds the flag to every entry after the first one that numbers processors. -/
def latch (available : Bool) : List (Entry × Bool) → List Entry
  | [] => []
  | (entry, provides) :: others =>
    (if available then { entry with flags := entry.flags.union .apIdAvailable } else entry)
      :: latch (available || provides) others

def flatten (plan : Plan) (registry : Registry) : List Entry :=
  latch false (plan.phases.flatMap (phaseEntries registry))

/-- The index of the first entry from which on processors are numbered. -/
def apIdFrom? (entries : List Entry) : Option Nat :=
  entries.findIdx? fun entry => entry.flags.contains .apIdAvailable

end BootTable
