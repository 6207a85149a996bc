import BootTable.Proofs.PhaseGraph.Tables

/-!
# BootTable — the ordering of a phase counts down by places

An ordering can be kept by places among the nodes: a queue of places, and for every place a counter.
Two things could go wrong then. A place could be out of range of the nodes, of a table or of the
counters, and a counter could be taken below zero. So each access of this loop is checked, and there
is no answer where a check fails. On the tables of a graph that was built no check ever fails, be
there circles or not, and the loop passes through the states of the ordering, one by one.

* **`Countdown.release?_byPlaces`**, **`Countdown.foldlM_release?_byPlaces`**: nodes with positive
  counters are released as in the ordering.
* **`Sorting.Places.pos_of_mem_dependents`**: whatever waits for the head of the queue has a
  positive counter.
* **`Countdown.run?_byPlaces`**: a run of the checked loop from any consistent state.
* **`exists_pops`**: how many components a run places.
* **`accounted_of_build`**: all of this for a graph that was built.
-/

namespace BootTable

namespace PhaseGraph

/-! ## A loop with checks -/

/-- The state of an ordering by places among the nodes. -/
structure Countdown where
  /-- The components placed so far, in order. -/
  placed : List ComponentId
  /-- The places of the components that wait for nothing any more. -/
  queue : List Nat
  /-- For every place, the number of components that are still waited for there. -/
  counters : List Nat
deriving DecidableEq, Repr

namespace Countdown

def start (nodes : List ComponentId) (tables : Tables) : Countdown :=
  let counters := tables.prerequisites.map List.length
  { placed := []
    queue := (List.range nodes.length).filter fun place => counters[place]? = some 0
    counters }

/-- Takes one off the counter at a place, which joins the queue if nothing is left. There is no
answer if there is no such counter or if nothing could be taken off. -/
def release? (countdown : Countdown) (place : Nat) : Option Countdown :=
  match countdown.counters[place]? with
  | none => none
  | some 0 => none
  | some (left + 1) =>
    some { countdown with
      queue := if left = 0 then countdown.queue ++ [place] else countdown.queue
      counters := countdown.counters.set place left }

/-- Places the component at the head of the queue. There is no answer if its place is out of
range. -/
def pop? (nodes : List ComponentId) (tables : Tables) (next : Nat) (others : List Nat)
    (countdown : Countdown) : Option Countdown := do
  let id ← nodes[next]?
  let waiting ← tables.dependents[next]?
  waiting.foldlM release? { countdown with placed := countdown.placed ++ [id], queue := others }

/-- So many steps, or as many as there are until the queue is empty. -/
def run? (nodes : List ComponentId) (tables : Tables) : Nat → Countdown → Option Countdown
  | 0, countdown => some countdown
  | steps + 1, countdown =>
    match countdown.queue with
    | [] => some countdown
    | next :: others => (pop? nodes tables next others countdown).bind (run? nodes tables steps)

/-- The state after so many steps from the start. -/
def after? (nodes : List ComponentId) (tables : Tables) (steps : Nat) : Option Countdown :=
  run? nodes tables steps (start nodes tables)

end Countdown

/-- The state of an ordering, by places. -/
def Sorting.byPlaces (graph : PhaseGraph) (sorting : Sorting) : Countdown where
  placed := sorting.placed
  queue := sorting.queue.map fun id => graph.nodes.idxOf id
  counters := graph.nodes.map sorting.valence

/-! ## The states inside a step -/

namespace Sorting

/-- The state inside a step, when the head of the queue is placed and of what waits for it some
components are released. -/
def inside (sorting : Sorting) (next : ComponentId) (others released : List ComponentId) :
    Sorting :=
  released.foldl release { sorting with placed := sorting.placed ++ [next], queue := others }

variable (sorting : Sorting) (next : ComponentId) (others : List ComponentId)
  {released : List ComponentId}

@[simp] theorem placed_inside :
    (sorting.inside next others released).placed = sorting.placed ++ [next] :=
  placed_foldl_release _ _

theorem queue_inside (h : released.Nodup) : (sorting.inside next others released).queue =
    others ++ released.filter fun id => sorting.valence id - 1 = 0 :=
  queue_foldl_release _ h

theorem valence_inside (h : released.Nodup) (id : ComponentId) :
    (sorting.inside next others released).valence id =
      if id ∈ released then sorting.valence id - 1 else sorting.valence id :=
  valence_foldl_release _ h id

end Sorting

variable {graph : PhaseGraph}

theorem placeNext?_of_queue_eq {sorting : Sorting} {next : ComponentId}
    {others : List ComponentId} (h : sorting.queue = next :: others) :
    graph.placeNext? sorting = some (sorting.inside next others (graph.dependents next)) := by
  unfold placeNext?
  rw [h]
  rfl

/-- What waits for the head of the queue waits for one component at least. -/
theorem Sorting.Places.pos_of_mem_dependents {next : ComponentId} {others : List ComponentId}
    {sorting after : Sorting} (hstep : Sorting.Places graph next others sorting after)
    (h : sorting.Consistent graph) {id : ComponentId} (hid : id ∈ graph.dependents next) :
    1 ≤ sorting.valence id := by
  rw [h.valence_eq]
  exact List.length_pos_of_mem ((hstep.mem_remaining_iff h id).mpr hid)

/-! ## Releasing by places -/

namespace Countdown

variable {sorting : Sorting}

theorem release?_of_getElem? {countdown : Countdown} {place left : Nat}
    (h : countdown.counters[place]? = some (left + 1)) :
    countdown.release? place = some { countdown with
      queue := if left = 0 then countdown.queue ++ [place] else countdown.queue
      counters := countdown.counters.set place left } := by
  unfold release?
  rw [h]

theorem release?_byPlaces (hnodes : graph.nodes.Nodup) {id : ComponentId} (hid : id ∈ graph.nodes)
    (hpos : 1 ≤ sorting.valence id) :
    (sorting.byPlaces graph).release? (graph.nodes.idxOf id) =
      some ((sorting.release id).byPlaces graph) := by
  obtain ⟨left, hleft⟩ := Nat.exists_eq_add_of_le' hpos
  have hcounter : (sorting.byPlaces graph).counters[graph.nodes.idxOf id]? = some (left + 1) := by
    show (graph.nodes.map sorting.valence)[graph.nodes.idxOf id]? = some (left + 1)
    rw [List.getElem?_map, List.getElem?_idxOf hid, Option.map_some, hleft]
  have hcounters : graph.nodes.map (sorting.release id).valence =
      (graph.nodes.map sorting.valence).set (graph.nodes.idxOf id) left := by
    rw [List.set_eq_modify, modify_map_idxOf hnodes]
    refine List.map_congr_left fun other _ => ?_
    rw [Sorting.valence_release, hleft, Nat.add_sub_cancel]
  have hqueue : (sorting.release id).queue =
      if left = 0 then sorting.queue ++ [id] else sorting.queue := by
    show (if sorting.valence id - 1 = 0 then _ else _) = _
    rw [hleft, Nat.add_sub_cancel]
  have hplaces : ((sorting.release id).queue.map fun other => graph.nodes.idxOf other) =
      if left = 0 then
        (sorting.queue.map fun other => graph.nodes.idxOf other) ++ [graph.nodes.idxOf id]
      else sorting.queue.map fun other => graph.nodes.idxOf other := by
    rw [hqueue, apply_ite (List.map _), List.map_append, List.map_singleton]
  rw [release?_of_getElem? hcounter]
  unfold Sorting.byPlaces
  rw [hplaces, hcounters]
  rfl

theorem foldlM_release?_byPlaces (hnodes : graph.nodes.Nodup) {ids : List ComponentId}
    (hids : ids.Nodup) (hsubset : ids ⊆ graph.nodes) (hpos : ∀ id ∈ ids, 1 ≤ sorting.valence id) :
    (ids.map fun id => graph.nodes.idxOf id).foldlM release? (sorting.byPlaces graph) =
      some ((ids.foldl Sorting.release sorting).byPlaces graph) := by
  induction ids generalizing sorting with
  | nil => rfl
  | cons id others ih =>
    rw [List.nodup_cons] at hids
    rw [List.cons_subset] at hsubset
    rw [List.forall_mem_cons] at hpos
    -- To release one leaves the counters of the others as they are.
    have hothers : ∀ other ∈ others, 1 ≤ (sorting.release id).valence other := by
      intro other hother
      have hne : other ≠ id := fun heq => hids.1 (heq ▸ hother)
      rw [Sorting.valence_release, if_neg hne]
      exact hpos.2 other hother
    rw [List.map_cons, List.foldlM_cons, release?_byPlaces hnodes hsubset.1 hpos.1]
    exact ih hids.2 hsubset.2 hothers

end Countdown

/-! ## Running by places -/

theorem Countdown.pop?_byPlaces (hgraph : graph.WellFormed) {sorting after : Sorting}
    {next : ComponentId} {others : List ComponentId} (h : sorting.Consistent graph)
    (hstep : Sorting.Places graph next others sorting after)
    (hafter : graph.placeNext? sorting = some after) :
    Countdown.pop? graph.nodes graph.tables (graph.nodes.idxOf next)
        (others.map fun id => graph.nodes.idxOf id) (sorting.byPlaces graph) =
      some (after.byPlaces graph) := by
  have hnode : next ∈ graph.nodes := (hstep.ready h).1
  have hrow : graph.tables.dependents[graph.nodes.idxOf next]? =
      some ((graph.dependents next).map fun id => graph.nodes.idxOf id) := by
    show (rows graph.nodes graph.dependents)[graph.nodes.idxOf next]? = _
    rw [rows, List.getElem?_map, List.getElem?_idxOf hnode, Option.map_some]
  have hfold : ((graph.dependents next).map fun id => graph.nodes.idxOf id).foldlM
      Countdown.release? ((sorting.inside next others []).byPlaces graph) =
        some ((sorting.inside next others (graph.dependents next)).byPlaces graph) :=
    Countdown.foldlM_release?_byPlaces hgraph.nodup_nodes (hgraph.nodup_dependents next)
      (hgraph.dependents_sublist next).subset fun id hid => hstep.pos_of_mem_dependents h hid
  rw [placeNext?_of_queue_eq hstep.queue_eq, Option.some.injEq] at hafter
  rw [hafter] at hfold
  unfold Countdown.pop?
  rw [List.getElem?_idxOf hnode, hrow]
  exact hfold

theorem Countdown.run?_byPlaces (hgraph : graph.WellFormed) (steps : Nat) {sorting : Sorting}
    (h : sorting.Consistent graph) :
    Countdown.run? graph.nodes graph.tables steps (sorting.byPlaces graph) =
      some ((graph.place steps sorting).byPlaces graph) := by
  induction steps generalizing sorting with
  | zero => rfl
  | succ steps ih =>
    cases hafter : graph.placeNext? sorting with
    | none =>
      have hqueue : (sorting.byPlaces graph).queue = [] := by
        show sorting.queue.map _ = []
        rw [placeNext?_eq_none_iff.mp hafter, List.map_nil]
      rw [place_of_none hafter, Countdown.run?, hqueue]
    | some after =>
      obtain ⟨next, others, hstep⟩ := exists_places hgraph hafter
      have hqueue : (sorting.byPlaces graph).queue =
          graph.nodes.idxOf next :: others.map fun id => graph.nodes.idxOf id := by
        show sorting.queue.map _ = _
        rw [hstep.queue_eq, List.map_cons]
      rw [place_succ_of_some hafter, Countdown.run?, hqueue]
      show (Countdown.pop? _ _ _ _ _).bind _ = _
      rw [Countdown.pop?_byPlaces hgraph h hstep hafter, Option.bind_some]
      exact ih (consistent_placeNext? hgraph h hafter)

theorem map_idxOf_self {α : Type} [DecidableEq α] {as : List α} (hnodup : as.Nodup) :
    (as.map fun a => as.idxOf a) = List.range as.length := by
  refine List.ext_getElem (by simp) fun place hplace _ => ?_
  rw [List.getElem_map, List.getElem_range, hnodup.idxOf_getElem]

theorem byPlaces_startSorting (hgraph : graph.WellFormed) :
    graph.startSorting.byPlaces graph = Countdown.start graph.nodes graph.tables := by
  have hvalence : ∀ id, graph.startSorting.valence id = (graph.prerequisites id).length := by
    intro id
    rw [(consistent_startSorting hgraph).valence_eq]
    exact congrArg List.length (remaining_nil graph id)
  have hcounters : graph.nodes.map graph.startSorting.valence =
      graph.tables.prerequisites.map List.length := by
    show _ = (rows graph.nodes graph.prerequisites).map List.length
    rw [rows, List.map_map]
    refine List.map_congr_left fun id _ => ?_
    rw [hvalence, Function.comp_apply, List.length_map]
  have hqueue : (graph.entryNodes.map fun id => graph.nodes.idxOf id) =
      (List.range graph.nodes.length).filter fun place =>
        (graph.nodes.map graph.startSorting.valence)[place]? = some 0 := by
    rw [← map_idxOf_self hgraph.nodup_nodes, List.filter_map]
    congr 1
    refine List.filter_congr fun id hid => ?_
    rw [Function.comp_apply, List.getElem?_map, List.getElem?_idxOf hid, Option.map_some, hvalence,
      Bool.eq_iff_iff, List.isEmpty_iff]
    simp
  have hstart : Countdown.start graph.nodes graph.tables =
      { placed := []
        queue := (List.range graph.nodes.length).filter fun place =>
          (graph.nodes.map graph.startSorting.valence)[place]? = some 0
        counters := graph.nodes.map graph.startSorting.valence } := by
    rw [hcounters]
    rfl
  rw [hstart, ← hqueue]
  rfl

/-- Every step of a run places one component, until there is nothing left to do. -/
theorem exists_pops (hgraph : graph.WellFormed) (steps : Nat) (sorting : Sorting) :
    ∃ pops ≤ steps, graph.place pops sorting = graph.place steps sorting ∧
      (graph.place steps sorting).placed.length = sorting.placed.length + pops := by
  induction steps generalizing sorting with
  | zero => exact ⟨0, Nat.le_refl 0, rfl, rfl⟩
  | succ steps ih =>
    cases hafter : graph.placeNext? sorting with
    | none =>
      refine ⟨0, Nat.zero_le _, ?_, ?_⟩
      · rw [place_of_none hafter, place_of_none hafter]
      · rw [place_of_none hafter, Nat.add_zero]
    | some after =>
      obtain ⟨next, others, hstep⟩ := exists_places hgraph hafter
      obtain ⟨pops, hle, hplace, hlength⟩ := ih after
      refine ⟨pops + 1, Nat.succ_le_succ hle, ?_, ?_⟩
      · rw [place_succ_of_some hafter, place_succ_of_some hafter, hplace]
      · rw [place_succ_of_some hafter, hlength, hstep.placed_eq, List.length_append,
          List.length_singleton]
        omega

/-! ## Graphs that were built -/

/-- What holds of a state of the ordering whenever it comes back to the queue. -/
structure Sorting.Accounted (graph : PhaseGraph) (sorting : Sorting) : Prop where
  /-- The counter of a node is the number of its prerequisites that are not placed yet. -/
  valence_eq : ∀ id ∈ graph.nodes, sorting.valence id =
    {provider | provider ∈ graph.prerequisites id ∧ provider ∉ sorting.placed}.ncard
  /-- Nothing was queued or placed twice. -/
  nodup : (sorting.placed ++ sorting.queue).Nodup
  /-- Only nodes are queued and placed. -/
  subset : sorting.placed ++ sorting.queue ⊆ graph.nodes
  /-- While the head of the queue is placed, whatever is released is a node, has a counter of one at
  least, and is neither placed nor queued. -/
  release : ∀ next others released id rest, sorting.queue = next :: others →
    graph.dependents next = released ++ id :: rest →
      id ∈ graph.nodes ∧ 1 ≤ (sorting.inside next others released).valence id ∧
        id ∉ (sorting.inside next others released).placed ++
          (sorting.inside next others released).queue

theorem Sorting.Consistent.accounted (hgraph : graph.WellFormed) {sorting : Sorting}
    (h : sorting.Consistent graph) : sorting.Accounted graph where
  valence_eq id _ := by
    have hremaining (provider : ComponentId) : provider ∈ graph.remaining sorting.placed id ↔
        provider ∈ graph.prerequisites id ∧ provider ∉ sorting.placed := by
      rw [mem_remaining, mem_prerequisites]
    rw [h.valence_eq, ncard_eq_length (nodup_remaining hgraph _ _) hremaining]
  nodup := h.nodup
  subset _ hmem := h.mem_nodes hmem
  release next others released id rest hqueue hdependents := by
    obtain ⟨head, tail, hstep⟩ := exists_places hgraph (placeNext?_of_queue_eq hqueue)
    obtain ⟨rfl, rfl⟩ := List.cons.inj (hstep.queue_eq.symm.trans hqueue)
    have hid : id ∈ graph.dependents head := by
      rw [hdependents]
      exact List.mem_append_right _ List.mem_cons_self
    -- What is released next waits for the head, so it is not ready, and it was not released before.
    have hready : id ∉ sorting.placed ++ sorting.queue := fun hmem =>
      hstep.not_mem_dependents h hmem hid
    obtain ⟨hreleased, -, hdisjoint⟩ :=
      List.nodup_append.mp (hdependents ▸ hgraph.nodup_dependents head)
    have hnew : id ∉ released := fun hmem => hdisjoint id hmem id List.mem_cons_self rfl
    rw [hstep.queue_eq, List.mem_append, List.mem_cons, not_or, not_or] at hready
    refine ⟨(hgraph.dependents_sublist head).subset hid, ?_, ?_⟩
    · rw [Sorting.valence_inside _ _ _ hreleased, if_neg hnew]
      exact hstep.pos_of_mem_dependents h hid
    · rw [Sorting.placed_inside, Sorting.queue_inside _ _ _ hreleased]
      simp [hready, hnew]

/-- Whenever the ordering of a graph that was built comes back to its queue, its counters are right
and nothing was queued twice. The loop by places, on the tables that are filled while the graph is
built, passes all checks and goes through the same states. It ends after as many steps as there are
nodes, if not before. -/
theorem accounted_of_build {registry : Registry} {index : CapabilityIndex} {phase : Phase}
    (h : (build registry index phase).result = .ok graph) :
    (∀ steps, (graph.place steps graph.startSorting).Accounted graph) ∧
      (∀ steps, Countdown.after? graph.nodes
          (Tables.ofEdges graph.nodes (foundEdges index (registry.inPhase phase))) steps =
        some ((graph.place steps graph.startSorting).byPlaces graph)) ∧
      ∃ pops ≤ graph.nodes.length, graph.place pops graph.startSorting = graph.finalSorting ∧
        graph.finalSorting.placed.length = pops ∧ graph.finalSorting.queue = [] := by
  have hgraph := wellFormed_of_build h
  have hstart := consistent_startSorting hgraph
  refine ⟨fun steps => ?accounted, fun steps => ?checked, ?ends⟩
  case accounted => exact (consistent_place hgraph steps hstart).accounted hgraph
  case checked =>
    rw [tables_of_build h, Countdown.after?, ← byPlaces_startSorting hgraph]
    exact Countdown.run?_byPlaces hgraph steps hstart
  case ends =>
    obtain ⟨pops, hle, hplace, hlength⟩ := exists_pops hgraph graph.nodes.length graph.startSorting
    have hplaced : graph.finalSorting.placed.length = pops := by
      rw [finalSorting, hlength]
      exact Nat.zero_add pops
    exact ⟨pops, hle, hplace, hplaced, queue_finalSorting hgraph⟩

end PhaseGraph

/-- A bus, a timer that needs its interrupts, and an echo that names the bus and itself. -/
def Registry.echoing : Registry where
  entries := [⟨{ Component.plain "timer" .coreDevices with needs := .ofList [⟨"irq"⟩] },
      "devices.toml"⟩,
    ⟨{ Component.plain "echo" .coreDevices with dependsOn := .ofList [⟨"bus"⟩, ⟨"echo"⟩] },
      "devices.toml"⟩,
    ⟨{ Component.plain "bus" .coreDevices with provides := .ofList [⟨"irq"⟩] }, "devices.toml"⟩]
  nodup_ids := by decide

namespace PhaseGraph

@[inherit_doc Registry.echoing]
def echoing : PhaseGraph where
  phase := .coreDevices
  nodes := [⟨"timer"⟩, ⟨"echo"⟩, ⟨"bus"⟩]
  edges := [⟨⟨"bus"⟩, ⟨"timer"⟩⟩, ⟨⟨"bus"⟩, ⟨"echo"⟩⟩, ⟨⟨"echo"⟩, ⟨"echo"⟩⟩]

/-- The echo is released once and waits for itself then. -/
theorem accounted_of_build_echoing :
    (build .echoing ⟨[(⟨"irq"⟩, [⟨"bus"⟩])]⟩ .coreDevices).result = .ok echoing ∧
      {provider | provider ∈ echoing.prerequisites ⟨"echo"⟩ ∧
        provider ∉ [(⟨"bus"⟩ : ComponentId), ⟨"timer"⟩]}.ncard = 1 ∧
      1 ≤ (echoing.startSorting.inside ⟨"bus"⟩ [] [⟨"timer"⟩]).valence ⟨"echo"⟩ ∧
      Countdown.after? echoing.nodes
          (Tables.ofEdges echoing.nodes
            (foundEdges ⟨[(⟨"irq"⟩, [⟨"bus"⟩])]⟩ (Registry.echoing.inPhase .coreDevices))) 3 =
        some { placed := [⟨"bus"⟩, ⟨"timer"⟩], queue := [], counters := [0, 1, 0] } ∧
      ∃ pops ≤ 3, echoing.finalSorting.placed.length = pops := by
  have hbuild : (build .echoing ⟨[(⟨"irq"⟩, [⟨"bus"⟩])]⟩ .coreDevices).result = .ok echoing := by
    decide
  obtain ⟨haccounted, hchecked, pops, hle, -, hlength, -⟩ := accounted_of_build hbuild
  have hcounter := (haccounted 2).valence_eq ⟨"echo"⟩ (by decide)
  have hone : (echoing.place 2 echoing.startSorting).valence ⟨"echo"⟩ = 1 := by decide
  have hreleased :=
    (haccounted 0).release ⟨"bus"⟩ [] [⟨"timer"⟩] ⟨"echo"⟩ [] (by decide) (by decide)
  exact ⟨hbuild, hcounter.symm.trans hone, hreleased.2.1, (hchecked 3).trans (by decide), pops, hle,
    hlength⟩

end PhaseGraph

end BootTable
