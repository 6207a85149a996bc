import BootTable.PhaseGraph

/-!
# BootTable — circles of dependencies

A component lies on a circle if it waits for itself, directly or through others. Two components
are on a common circle if each waits for the other. The reported circle is that of the first-seen
component that lies on any.
-/

namespace BootTable

section

variable {α : Type} [DecidableEq α]

/-- What follows a member of a list in one step and is not reached yet, once each. -/
def newlyReached (next : α → List α) (frontier reached : List α) : List α :=
  (firstOccurrences (frontier.flatMap next)).filter fun a => a ∉ reached

/-- What is reached, and everything that can be reached from the frontier in so many steps or
fewer. The frontier is the part of what is reached whose followers may be missing. -/
def closure (next : α → List α) : Nat → List α → List α → List α
  | 0, _, reached => reached
  | steps + 1, frontier, reached =>
    match newlyReached next frontier reached with
    | [] => reached
    | new => closure next steps new (reached ++ new)

end

namespace PhaseGraph

/-- The components that a component leads to, directly or through others; no way is longer than
there are components. -/
def reachedFrom (graph : PhaseGraph) (next : ComponentId → List ComponentId) (id : ComponentId) :
    List ComponentId :=
  closure next graph.nodes.length (next id) (next id)

/-- The components that wait for a component, directly or through others. -/
def allDependents (graph : PhaseGraph) (id : ComponentId) : List ComponentId :=
  graph.reachedFrom graph.dependents id

/-- The components that a component waits for, directly or through others. -/
def allPrerequisites (graph : PhaseGraph) (id : ComponentId) : List ComponentId :=
  graph.reachedFrom graph.prerequisites id

/-- The component waits for itself, directly or through others. -/
def onCycle (graph : PhaseGraph) (id : ComponentId) : Bool :=
  id ∈ graph.allDependents id

/-- The circle of the first component, of those given, that lies on one: the given components
that wait for it and for which it waits. -/
def firstCycle (graph : PhaseGraph) (ids : List ComponentId) : List ComponentId :=
  match ids.find? graph.onCycle with
  | none => []
  | some first =>
    let after := graph.allDependents first
    let before := graph.allPrerequisites first
    ids.filter fun id => id ∈ after ∧ id ∈ before

end PhaseGraph

end BootTable
