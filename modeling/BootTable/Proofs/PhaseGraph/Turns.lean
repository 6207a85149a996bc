import BootTable.Proofs.Plan.Order
import Mathlib.Data.Prod.Lex

/-!
# BootTable — the order in which a phase is placed

The queue is served in the order in which components join it. A component joins when the last of its
prerequisites is placed, and those that join together do so in first-seen order. So where a
component stands is decided by two numbers: its *turn*, which is one more than the position of its
last prerequisite or zero if there is none, and its first-seen position.

* **`turn_le_iff`**: the turn as a bound on the positions of the prerequisites. Every other
  statement about turns follows from it.
* **`Sorting.InTurn`**: what is placed, followed by what is queued, stands in the order of turns and
  positions. The turns are those in the list of what is placed; **`turn_append`** says that later
  steps do not change them, **`inTurn_placeNext?`** that a step keeps the order.
* **`idxOf_lt_iff_of_build`**: the order of any graph that was built and could be sorted.
* **`eq_of_sort_of_pairwise_rank`**: no other order of the nodes is that of its own turns.
-/

namespace BootTable

namespace PhaseGraph

/-! ## Positions in a list -/

section

variable {α : Type} [DecidableEq α] {as : List α}

/-- In a list that is ordered by an asymmetric relation, positions say what is related. -/
theorem idxOf_lt_iff_of_pairwise {r : α → α → Prop} [Std.Asymm r] (h : as.Pairwise r) {a b : α}
    (ha : a ∈ as) (hb : b ∈ as) : as.idxOf a < as.idxOf b ↔ r a b := by
  have hpositions {a b : α} (ha : a ∈ as) (hb : b ∈ as) (hlt : as.idxOf a < as.idxOf b) :
      r a b := by
    have hrelated := List.pairwise_iff_getElem.mp h _ _ (List.idxOf_lt_length_iff.mpr ha)
      (List.idxOf_lt_length_iff.mpr hb) hlt
    rwa [List.getElem_idxOf, List.getElem_idxOf] at hrelated
  constructor
  · exact hpositions ha hb
  · intro hrelated
    rcases Nat.lt_trichotomy (as.idxOf a) (as.idxOf b) with hlt | heq | hgt
    · exact hlt
    · rw [(List.idxOf_inj ha).mp heq] at hrelated
      exact absurd hrelated (Std.Asymm.asymm _ _ hrelated)
    · exact absurd (hpositions hb ha hgt) (Std.Asymm.asymm _ _ hrelated)

theorem pairwise_idxOf_lt (hnodup : as.Nodup) :
    as.Pairwise fun a b => as.idxOf a < as.idxOf b := by
  rw [List.pairwise_iff_getElem]
  intro i j hi hj hlt
  rwa [hnodup.idxOf_getElem, hnodup.idxOf_getElem]

end

/-! ## Turns -/

/-- The turn of a component in an order: zero if it waits for nothing, otherwise one more than the
position of the last of its prerequisites. -/
def turn (graph : PhaseGraph) (order : List ComponentId) (id : ComponentId) : Nat :=
  match ((graph.prerequisites id).map fun provider => order.idxOf provider).max? with
  | none => 0
  | some last => last + 1

/-- What decides where a component stands in an order: its turn, then its first-seen position. -/
def rank (graph : PhaseGraph) (position : ComponentId → Nat) (order : List ComponentId)
    (id : ComponentId) : Nat ×ₗ Nat :=
  toLex (graph.turn order id, position id)

variable {graph : PhaseGraph} {position : ComponentId → Nat}

theorem turn_le_iff {order : List ComponentId} {id : ComponentId} {bound : Nat} :
    graph.turn order id ≤ bound ↔
      ∀ provider, graph.Precedes provider id → order.idxOf provider < bound := by
  have hall : (∀ provider, graph.Precedes provider id → order.idxOf provider < bound) ↔
      ∀ place ∈ (graph.prerequisites id).map fun provider => order.idxOf provider,
        place < bound := by
    rw [List.forall_mem_map]
    simp only [mem_prerequisites]
  rw [hall]
  unfold turn
  cases hlast : ((graph.prerequisites id).map fun provider => order.idxOf provider).max? with
  | none =>
    rw [List.max?_eq_none_iff.mp hlast]
    simp
  | some last =>
    obtain ⟨hmem, hle⟩ := List.max?_eq_some_iff.mp hlast
    constructor
    · intro hlt place hplace
      exact Nat.lt_of_le_of_lt (hle place hplace) hlt
    · intro h
      exact h last hmem

/-- What is placed later does not change the turn of a component whose prerequisites are placed. -/
theorem turn_append {placed : List ComponentId} {id : ComponentId}
    (h : graph.remaining placed id = []) (later : List ComponentId) :
    graph.turn (placed ++ later) id = graph.turn placed id := by
  apply eq_of_forall_ge_iff
  intro bound
  rw [turn_le_iff, turn_le_iff]
  refine forall₂_congr fun provider hedge => ?_
  rw [List.idxOf_append_of_mem (remaining_eq_nil_iff.mp h provider hedge)]

theorem turn_le_length {placed : List ComponentId} {id : ComponentId}
    (h : graph.remaining placed id = []) : graph.turn placed id ≤ placed.length :=
  turn_le_iff.mpr fun provider hedge =>
    List.idxOf_lt_length_iff.mpr (remaining_eq_nil_iff.mp h provider hedge)

/-- A component that waits for something that is not placed has its turn later. -/
theorem length_lt_turn {placed : List ComponentId} {provider id : ComponentId}
    (hedge : graph.Precedes provider id) (hnew : provider ∉ placed) (later : List ComponentId) :
    placed.length < graph.turn (placed ++ later) id := by
  have hlt := turn_le_iff.mp (Nat.le_refl (graph.turn (placed ++ later) id)) provider hedge
  rw [List.idxOf_append, if_neg hnew] at hlt
  omega

theorem rank_append {placed : List ComponentId} {id : ComponentId}
    (h : graph.remaining placed id = []) (later : List ComponentId) :
    graph.rank position (placed ++ later) id = graph.rank position placed id := by
  rw [rank, rank, turn_append h]

/-! ## The run -/

/-- What is placed, followed by what is queued, stands in the order of turns and positions. -/
def Sorting.InTurn (graph : PhaseGraph) (position : ComponentId → Nat) (sorting : Sorting) : Prop :=
  (sorting.placed ++ sorting.queue).Pairwise fun a b =>
    graph.rank position sorting.placed a < graph.rank position sorting.placed b

section

variable (hgraph : graph.WellFormed)
  (hposition : graph.nodes.Pairwise fun a b => position a < position b)

include hgraph hposition

omit hgraph in
theorem inTurn_startSorting : graph.startSorting.InTurn graph position := by
  have hqueue : graph.entryNodes.Pairwise fun a b => position a < position b :=
    hposition.sublist List.filter_sublist
  refine hqueue.imp_of_mem fun {a b} ha hb hlt => ?_
  -- What waits for nothing has turn zero.
  have hzero {id : ComponentId} (hid : id ∈ graph.entryNodes) : graph.turn [] id = 0 := by
    have hnone : graph.remaining [] id = [] := by
      rw [remaining_nil]
      simpa using (List.mem_filter.mp hid).2
    exact Nat.le_zero.mp (turn_le_length hnone)
  exact Prod.Lex.toLex_lt_toLex.mpr (.inr ⟨(hzero ha).trans (hzero hb).symm, hlt⟩)

theorem inTurn_placeNext? {sorting after : Sorting} (h : sorting.Consistent graph)
    (hturn : sorting.InTurn graph position) (hafter : graph.placeNext? sorting = some after) :
    after.InTurn graph position := by
  have hagain := consistent_placeNext? hgraph h hafter
  obtain ⟨next, others, hstep⟩ := exists_places hgraph hafter
  have hwas {id : ComponentId} (hid : id ∈ sorting.placed ++ sorting.queue) :
      graph.remaining sorting.placed id = [] := ((h.mem_iff id).mp hid).2
  have hrank {id : ComponentId} (hid : id ∈ sorting.placed ++ sorting.queue) :
      graph.rank position after.placed id = graph.rank position sorting.placed id := by
    rw [hstep.placed_eq, rank_append (hwas hid)]
  -- What joins the queue waited for the component that is placed last.
  have hjoins {id : ComponentId}
      (hid : id ∈ (graph.dependents next).filter fun id => sorting.valence id - 1 = 0) :
      graph.turn after.placed id = sorting.placed.length + 1 := by
    have hready : graph.remaining after.placed id = [] := by
      apply ((hagain.mem_iff id).mp _).2
      rw [hstep.append_eq]
      exact List.mem_append_right _ hid
    have hle := turn_le_length hready
    rw [hstep.placed_eq, List.length_append, List.length_singleton] at hle
    have hedge := mem_dependents.mp (List.mem_of_mem_filter hid)
    have hlt := length_lt_turn hedge (hstep.ready h).2.2 [next]
    rw [hstep.placed_eq]
    omega
  unfold Sorting.InTurn
  rw [hstep.append_eq, List.pairwise_append]
  refine ⟨?old, ?joining, ?between⟩
  case old =>
    refine hturn.imp_of_mem fun ha hb hlt => ?_
    rw [hrank ha, hrank hb]
    exact hlt
  case joining =>
    refine (hposition.sublist (List.filter_sublist.trans
      (hgraph.dependents_sublist next))).imp_of_mem fun ha hb hlt => ?_
    exact Prod.Lex.toLex_lt_toLex.mpr (.inr ⟨(hjoins ha).trans (hjoins hb).symm, hlt⟩)
  case between =>
    intro a ha b hb
    have hle := turn_le_length (hwas ha)
    rw [hrank ha]
    refine Prod.Lex.toLex_lt_toLex.mpr (.inl ?_)
    show graph.turn sorting.placed a < graph.turn after.placed b
    rw [hjoins hb]
    omega

theorem inTurn_place (steps : Nat) {sorting : Sorting} (h : sorting.Consistent graph)
    (hturn : sorting.InTurn graph position) : (graph.place steps sorting).InTurn graph position := by
  -- The order needs the counters to be right, so both invariants go through the run together.
  induction steps generalizing sorting with
  | zero => exact hturn
  | succ steps ih =>
    cases hstep : graph.placeNext? sorting with
    | none =>
      rw [place_of_none hstep]
      exact hturn
    | some next =>
      rw [place_succ_of_some hstep]
      exact ih (consistent_placeNext? hgraph h hstep)
        (inTurn_placeNext? hgraph hposition h hturn hstep)

theorem pairwise_rank_of_sort {order : List ComponentId} (hsort : graph.sort = .ok order) :
    order.Pairwise fun a b => graph.rank position order a < graph.rank position order b := by
  obtain ⟨-, rfl⟩ := (sort_eq_ok_iff hgraph).mp hsort
  have hturn := inTurn_place hgraph hposition graph.nodes.length
    (consistent_startSorting hgraph) (inTurn_startSorting hposition)
  change graph.finalSorting.InTurn graph position at hturn
  unfold Sorting.InTurn at hturn
  rwa [queue_finalSorting hgraph, List.append_nil] at hturn

/-! ## No other order -/

omit hgraph hposition in
/-- Whatever is placed later, nothing that is not placed yet ranks before the head of the queue. -/
theorem Sorting.Places.rank_next_lt {next : ComponentId} {others : List ComponentId}
    {sorting after : Sorting} (hstep : Sorting.Places graph next others sorting after)
    (h : sorting.Consistent graph) (hturn : sorting.InTurn graph position)
    {id : ComponentId} (hnode : id ∈ graph.nodes) (hnew : id ∉ sorting.placed) (hne : id ≠ next)
    (later : List ComponentId) :
    graph.rank position sorting.placed next <
      graph.rank position (sorting.placed ++ later) id := by
  by_cases hready : graph.remaining sorting.placed id = []
  -- What is free is queued, and so it is behind the head.
  · have hqueued : id ∈ others := by
      have hmem := (h.mem_iff id).mpr ⟨hnode, hready⟩
      rw [hstep.queue_eq] at hmem
      simpa [hnew, hne] using hmem
    have hbehind := (List.pairwise_append.mp hturn).2.1
    rw [hstep.queue_eq] at hbehind
    rw [rank_append hready]
    exact (List.pairwise_cons.mp hbehind).1 id hqueued
  · obtain ⟨provider, hprovider⟩ := List.exists_mem_of_ne_nil _ hready
    obtain ⟨hedge, hwaiting⟩ := mem_remaining.mp hprovider
    have hturned := turn_le_length (hstep.ready h).2.1
    exact Prod.Lex.toLex_lt_toLex.mpr
      (.inl (Nat.lt_of_le_of_lt hturned (length_lt_turn hedge hwaiting later)))

omit hposition in
/-- A step places what stands next in any list of the nodes that is in the order of its own
turns. -/
theorem prefix_placeNext? {other : List ComponentId} (hperm : other.Perm graph.nodes)
    (hother : other.Pairwise fun a b => graph.rank position other a < graph.rank position other b)
    {sorting after : Sorting} (h : sorting.Consistent graph)
    (hturn : sorting.InTurn graph position) (hafter : graph.placeNext? sorting = some after)
    (hplaced : sorting.placed <+: other) : after.placed <+: other := by
  obtain ⟨next, others, hstep⟩ := exists_places hgraph hafter
  obtain ⟨hnode, hready, hnew⟩ := hstep.ready h
  obtain ⟨later, rfl⟩ := hplaced
  have hnodup := hperm.nodup_iff.mpr hgraph.nodup_nodes
  have hnext : next ∈ later :=
    (List.mem_append.mp (hperm.mem_iff.mpr hnode)).resolve_left hnew
  cases later with
  | nil => exact absurd hnext List.not_mem_nil
  | cons first rest =>
    rcases List.mem_cons.mp hnext with rfl | hrest
    · exact ⟨rest, by rw [hstep.placed_eq, List.append_assoc, List.singleton_append]⟩
    · exfalso
      have hbefore := (List.pairwise_cons.mp (List.pairwise_append.mp hother).2.1).1 next hrest
      rw [rank_append hready] at hbefore
      obtain ⟨-, hlater, hdisjoint⟩ := List.nodup_append.mp hnodup
      have hfirst : first ∉ sorting.placed := fun hmem =>
        hdisjoint first hmem first List.mem_cons_self rfl
      have hne : first ≠ next := fun heq => (List.nodup_cons.mp hlater).1 (heq ▸ hrest)
      have hnodefirst : first ∈ graph.nodes :=
        hperm.mem_iff.mp (List.mem_append_right _ List.mem_cons_self)
      exact lt_asymm hbefore (hstep.rank_next_lt h hturn hnodefirst hfirst hne (first :: rest))

theorem prefix_place {other : List ComponentId} (hperm : other.Perm graph.nodes)
    (hother : other.Pairwise fun a b => graph.rank position other a < graph.rank position other b)
    (steps : Nat) {sorting : Sorting} (h : sorting.Consistent graph)
    (hturn : sorting.InTurn graph position) (hplaced : sorting.placed <+: other) :
    (graph.place steps sorting).placed <+: other := by
  induction steps generalizing sorting with
  | zero => exact hplaced
  | succ steps ih =>
    cases hstep : graph.placeNext? sorting with
    | none =>
      rw [place_of_none hstep]
      exact hplaced
    | some next =>
      rw [place_succ_of_some hstep]
      exact ih (consistent_placeNext? hgraph h hstep)
        (inTurn_placeNext? hgraph hposition h hturn hstep)
        (prefix_placeNext? hgraph hperm hother h hturn hstep hplaced)

theorem eq_of_sort_of_pairwise_rank {order other : List ComponentId}
    (hsort : graph.sort = .ok order) (hperm : other.Perm graph.nodes)
    (hother : other.Pairwise fun a b =>
      graph.rank position other a < graph.rank position other b) : other = order := by
  -- What was placed at the end is a first part of the other list, and as long.
  have hlength := (perm_of_sort hgraph hsort).length_eq.trans hperm.length_eq.symm
  obtain ⟨-, rfl⟩ := (sort_eq_ok_iff hgraph).mp hsort
  have hstart := prefix_place hgraph hposition hperm hother graph.nodes.length
    (consistent_startSorting hgraph) (inTurn_startSorting hposition) List.nil_prefix
  exact (hstart.eq_of_length hlength).symm

end

/-! ## Graphs that were built -/

section

variable {registry : Registry} {index : CapabilityIndex} {phase : Phase}
  (hbuild : (build registry index phase).result = .ok graph)

include hbuild

/-- Of two components in the order of a phase, the one with the smaller turn stands first, and
among those with the same turn the one that was seen first. -/
theorem idxOf_lt_iff_of_build {order : List ComponentId} (hsort : graph.sort = .ok order) :
    order.Perm ((registry.inPhase phase).map Component.id) ∧ order.Nodup ∧
      ∀ a ∈ order, ∀ b ∈ order, ∃ i j,
        registry.position? a = some i ∧ registry.position? b = some j ∧
          (order.idxOf a < order.idxOf b ↔
            toLex (graph.turn order a, i) < toLex (graph.turn order b, j)) := by
  have hgraph := wellFormed_of_build hbuild
  have hperm := perm_of_sort hgraph hsort
  have hposition := (pairwise_idxOf_lt registry.nodup_ids').sublist (nodes_sublist_ids hbuild)
  refine ⟨nodes_of_build hbuild ▸ hperm, hperm.nodup_iff.mpr hgraph.nodup_nodes,
    fun a ha b hb => ?_⟩
  have hseen {id : ComponentId} (hid : id ∈ order) :
      registry.position? id = some (registry.ids.idxOf id) := by
    rw [Registry.position?_eq_some_iff]
    exact List.getElem?_idxOf ((nodes_sublist_ids hbuild).subset (hperm.mem_iff.mp hid))
  have hranked := pairwise_rank_of_sort hgraph hposition hsort
  have hasymm : Std.Asymm fun a b : ComponentId =>
      graph.rank registry.ids.idxOf order a < graph.rank registry.ids.idxOf order b :=
    ⟨fun _ _ => lt_asymm⟩
  exact ⟨_, _, hseen ha, hseen hb, idxOf_lt_iff_of_pairwise hranked ha hb⟩

end

end PhaseGraph

/-- Devices of which two wait for the provider of interrupts, and the one seen first for the second
of these. -/
def Registry.released : Registry where
  entries := [⟨.plain "pages" .memoryManagement, "memory.toml"⟩,
    ⟨{ Component.plain "timer" .coreDevices with dependsOn := .ofList [⟨"disk"⟩] },
      "devices.toml"⟩,
    ⟨{ Component.plain "screen" .coreDevices with dependsOn := .ofList [⟨"bus"⟩] },
      "devices.toml"⟩,
    ⟨{ Component.plain "disk" .coreDevices with needs := .ofList [⟨"irq"⟩] }, "devices.toml"⟩,
    ⟨{ Component.plain "bus" .coreDevices with provides := .ofList [⟨"irq"⟩] }, "devices.toml"⟩]
  nodup_ids := by decide

namespace PhaseGraph

@[inherit_doc Registry.released]
def released : PhaseGraph where
  phase := .coreDevices
  nodes := [⟨"timer"⟩, ⟨"screen"⟩, ⟨"disk"⟩, ⟨"bus"⟩]
  edges := [⟨⟨"disk"⟩, ⟨"timer"⟩⟩, ⟨⟨"bus"⟩, ⟨"screen"⟩⟩, ⟨⟨"bus"⟩, ⟨"disk"⟩⟩]

theorem idxOf_lt_iff_of_build_released :
    released.sort = .ok [⟨"bus"⟩, ⟨"screen"⟩, ⟨"disk"⟩, ⟨"timer"⟩] ∧
      ∃ i j, Registry.released.position? ⟨"screen"⟩ = some i ∧
        Registry.released.position? ⟨"timer"⟩ = some j ∧ j < i ∧
        toLex (released.turn [⟨"bus"⟩, ⟨"screen"⟩, ⟨"disk"⟩, ⟨"timer"⟩] ⟨"screen"⟩, i) <
          toLex (released.turn [⟨"bus"⟩, ⟨"screen"⟩, ⟨"disk"⟩, ⟨"timer"⟩] ⟨"timer"⟩, j) := by
  have hbuild : (build .released ⟨[(⟨"irq"⟩, [⟨"bus"⟩])]⟩ .coreDevices).result = .ok released := by
    decide
  have hsort : released.sort = .ok [⟨"bus"⟩, ⟨"screen"⟩, ⟨"disk"⟩, ⟨"timer"⟩] := by
    decide
  obtain ⟨i, j, hi, hj, hiff⟩ :=
    (idxOf_lt_iff_of_build hbuild hsort).2.2 ⟨"screen"⟩ (by decide) ⟨"timer"⟩ (by decide)
  have hscreen : Registry.released.position? ⟨"screen"⟩ = some 2 := by decide
  have htimer : Registry.released.position? ⟨"timer"⟩ = some 1 := by decide
  cases hi.symm.trans hscreen
  cases hj.symm.trans htimer
  exact ⟨hsort, 2, 1, hscreen, htimer, by decide, hiff.mp (by decide)⟩

end PhaseGraph

end BootTable
