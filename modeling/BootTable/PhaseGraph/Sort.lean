import BootTable.PhaseGraph.Cycle

/-!
# BootTable — ordering a phase

Components that wait for nothing are placed first. Whenever one is placed, everything that waits
for it waits for one component less, and what then waits for nothing joins the end of the queue.
Ties are thus decided by the first-seen order, and the order of a phase is reproducible. What still
waits when the queue is empty cannot be ordered.
-/

namespace BootTable.PhaseGraph

/-- The state of an ordering. -/
structure Sorting where
  /-- The components placed so far, in order. -/
  placed : List ComponentId
  /-- The components that wait for nothing any more, in the order in which they came to. -/
  queue : List ComponentId
  /-- For every component, the number of components that it still waits for. -/
  valences : List (ComponentId × Nat)
deriving DecidableEq, Repr

namespace Sorting

/-- The number of components that a component still waits for. -/
def valence (sorting : Sorting) (id : ComponentId) : Nat :=
  (sorting.valences.lookup id).getD 0

/-- A component waits for one component less; if that was the last one, it joins the queue. -/
def release (sorting : Sorting) (id : ComponentId) : Sorting :=
  let left := sorting.valence id - 1
  { sorting with
    queue := if left = 0 then sorting.queue ++ [id] else sorting.queue
    valences := sorting.valences.map fun entry => if entry.1 = id then (id, left) else entry }

end Sorting

def startSorting (graph : PhaseGraph) : Sorting :=
  { placed := []
    queue := graph.entryNodes
    valences := graph.nodes.map fun id => (id, (graph.prerequisites id).length) }

/-- Places the component at the head of the queue; there is nothing to do if the queue is empty. -/
def placeNext? (graph : PhaseGraph) (sorting : Sorting) : Option Sorting :=
  match sorting.queue with
  | [] => none
  | next :: others =>
    some ((graph.dependents next).foldl Sorting.release
      { sorting with placed := sorting.placed ++ [next], queue := others })

def place (graph : PhaseGraph) : Nat → Sorting → Sorting
  | 0, sorting => sorting
  | steps + 1, sorting =>
    match graph.placeNext? sorting with
    | none => sorting
    | some next => place graph steps next

/-- The state when the queue is empty. No component is placed twice, so that many steps as there
are components suffice. -/
def finalSorting (graph : PhaseGraph) : Sorting :=
  graph.place graph.nodes.length graph.startSorting

/-- The components that still wait in a state, in first-seen order. -/
def unresolved (graph : PhaseGraph) (sorting : Sorting) : List ComponentId :=
  graph.nodes.filter fun id => sorting.valence id ≠ 0

/-- The components of the phase in an order in which each follows its prerequisites. -/
def sort (graph : PhaseGraph) : Except PlanError (List ComponentId) :=
  let final := graph.finalSorting
  if final.placed.length = graph.nodes.length then .ok final.placed
  else
    let waiting := graph.unresolved final
    .error (.dependencyCycle graph.phase (graph.firstCycle waiting) waiting)

end BootTable.PhaseGraph
