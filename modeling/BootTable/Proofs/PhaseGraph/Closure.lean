import BootTable.Proofs.PhaseGraph.Sorting

/-!
# BootTable — the order of a graph depends on its transitive closure alone

An edge that other edges imply changes counters and the moments at which they go down, but not the
moment at which a component joins the queue: when the last of its prerequisites is placed, all that
these wait for was placed before. So what joins the queue at a step can be said in terms of the
transitive closure, and it joins in first-seen order, whatever the edges are.

* **`mem_iff_of_transGen`**: placed or queued are the nodes of which everything before them, in the
  closure, is placed.
* **`Sorting.Places.mem_released_iff`**: what a step adds to the queue is what is placed or queued
  after it and was not before.
* **`placed_finalSorting_eq`**: graphs with the same nodes and the same closure are ordered alike.
-/

namespace BootTable.PhaseGraph

open Relation

variable {graph other : PhaseGraph}

/-! ## One graph -/

namespace Sorting

/-- The prerequisites of a component are placed exactly if all that comes before it is. -/
theorem Consistent.remaining_eq_nil_iff_of_transGen {sorting : Sorting}
    (h : sorting.Consistent graph) {id : ComponentId} :
    graph.remaining sorting.placed id = [] ↔
      ∀ provider, TransGen graph.Precedes provider id → provider ∈ sorting.placed := by
  rw [remaining_eq_nil_iff]
  constructor
  · intro hall provider hway
    obtain ⟨last, hbefore, hlast⟩ := TransGen.tail'_iff.mp hway
    rcases reflTransGen_iff_eq_or_transGen.mp hbefore with rfl | hbefore
    · exact hall last hlast
    · exact (h.orderly.idxOf_lt_of_transGen hbefore (hall last hlast)).1
  · intro hall provider hedge
    exact hall provider (.single hedge)

theorem Consistent.mem_iff_of_transGen {sorting : Sorting} (h : sorting.Consistent graph)
    (id : ComponentId) :
    id ∈ sorting.placed ++ sorting.queue ↔ id ∈ graph.nodes ∧
      ∀ provider, TransGen graph.Precedes provider id → provider ∈ sorting.placed := by
  rw [h.mem_iff, h.remaining_eq_nil_iff_of_transGen]

namespace Places

variable {next : ComponentId} {others : List ComponentId} {sorting after : Sorting}
  (hstep : Places graph next others sorting after)

include hstep

theorem mem_released_iff (hafter : after.Consistent graph) (id : ComponentId) :
    id ∈ (graph.dependents next).filter (fun id => sorting.valence id - 1 = 0) ↔
      id ∈ after.placed ++ after.queue ∧ id ∉ sorting.placed ++ sorting.queue := by
  have hnodup := hafter.nodup
  rw [hstep.append_eq] at hnodup ⊢
  have hdisjoint := (List.nodup_append.mp hnodup).2.2
  constructor
  · intro hreleased
    exact ⟨List.mem_append_right _ hreleased, fun hready => hdisjoint id hready id hreleased rfl⟩
  · rintro ⟨hmem, hnew⟩
    exact (List.mem_append.mp hmem).resolve_left hnew

end Places

end Sorting

/-! ## Two graphs -/

/-- Two states have placed and queued the same. Their counters may differ. -/
structure Sorting.Agrees (sorting sorting' : Sorting) : Prop where
  placed_eq : sorting.placed = sorting'.placed
  queue_eq : sorting.queue = sorting'.queue

section

variable (hgraph : graph.WellFormed) (hother : other.WellFormed)
  (hnodes : graph.nodes = other.nodes)
  (hclosure : TransGen graph.Precedes = TransGen other.Precedes)

include hnodes hclosure

theorem mem_placed_or_queued_iff {sorting sorting' : Sorting} (h : sorting.Consistent graph)
    (h' : sorting'.Consistent other) (hplaced : sorting.placed = sorting'.placed)
    (id : ComponentId) :
    id ∈ sorting.placed ++ sorting.queue ↔ id ∈ sorting'.placed ++ sorting'.queue := by
  rw [h.mem_iff_of_transGen, h'.mem_iff_of_transGen, hnodes, hclosure, hplaced]

include hgraph hother

theorem agrees_startSorting : graph.startSorting.Agrees other.startSorting where
  placed_eq := rfl
  queue_eq := by
    -- Nothing is placed yet, so queued is what nothing comes before.
    show graph.entryNodes = other.entryNodes
    have hsub : other.entryNodes.Sublist graph.nodes := hnodes ▸ List.filter_sublist
    exact hgraph.eq_of_mem_iff List.filter_sublist hsub
      (mem_placed_or_queued_iff hnodes hclosure (consistent_startSorting hgraph)
        (consistent_startSorting hother) rfl)

theorem agrees_placeNext? {sorting sorting' after : Sorting} (h : sorting.Consistent graph)
    (h' : sorting'.Consistent other) (hagrees : sorting.Agrees sorting')
    (hnext : graph.placeNext? sorting = some after) :
    ∃ after', other.placeNext? sorting' = some after' ∧ after.Agrees after' := by
  obtain ⟨id, others, hstep⟩ := exists_places hgraph hnext
  have hqueue : sorting'.queue = id :: others := hagrees.queue_eq.symm.trans hstep.queue_eq
  obtain ⟨after', hnext'⟩ : ∃ after', other.placeNext? sorting' = some after' := by
    rw [← Option.ne_none_iff_exists', Ne, placeNext?_eq_none_iff, hqueue]
    exact List.cons_ne_nil _ _
  obtain ⟨id', others', hstep'⟩ := exists_places hother hnext'
  obtain ⟨rfl, rfl⟩ : id = id' ∧ others = others' :=
    List.cons.inj (hqueue.symm.trans hstep'.queue_eq)
  have hplaced : after.placed = after'.placed := by
    rw [hstep.placed_eq, hstep'.placed_eq, hagrees.placed_eq]
  -- The same components join the queue, though other edges may have kept them from it.
  have hreleased : (graph.dependents id).filter (fun id => sorting.valence id - 1 = 0) =
      (other.dependents id).filter fun id => sorting'.valence id - 1 = 0 := by
    have hsub : ((other.dependents id).filter fun id => sorting'.valence id - 1 = 0).Sublist
        graph.nodes := hnodes ▸ List.filter_sublist.trans (hother.dependents_sublist id)
    refine hgraph.eq_of_mem_iff (List.filter_sublist.trans (hgraph.dependents_sublist id)) hsub
      fun joining => ?_
    have hafter := consistent_placeNext? hgraph h hnext
    have hafter' := consistent_placeNext? hother h' hnext'
    rw [hstep.mem_released_iff hafter, hstep'.mem_released_iff hafter',
      mem_placed_or_queued_iff hnodes hclosure h h' hagrees.placed_eq,
      mem_placed_or_queued_iff hnodes hclosure hafter hafter' hplaced]
  refine ⟨after', hnext', hplaced, ?_⟩
  rw [hstep.queue_after_eq, hstep'.queue_after_eq, hreleased]

theorem agrees_place (steps : Nat) {sorting sorting' : Sorting} (h : sorting.Consistent graph)
    (h' : sorting'.Consistent other) (hagrees : sorting.Agrees sorting') :
    (graph.place steps sorting).Agrees (other.place steps sorting') := by
  induction steps generalizing sorting sorting' with
  | zero => exact hagrees
  | succ steps ih =>
    cases hnext : graph.placeNext? sorting with
    -- The queues are equal, so both runs end at the same step.
    | none =>
      have hnext' : other.placeNext? sorting' = none := by
        rw [placeNext?_eq_none_iff, ← hagrees.queue_eq]
        exact placeNext?_eq_none_iff.mp hnext
      rw [place_of_none hnext, place_of_none hnext']
      exact hagrees
    | some after =>
      obtain ⟨after', hnext', hagain⟩ :=
        agrees_placeNext? hgraph hother hnodes hclosure h h' hagrees hnext
      rw [place_succ_of_some hnext, place_succ_of_some hnext']
      exact ih (consistent_placeNext? hgraph h hnext) (consistent_placeNext? hother h' hnext')
        hagain

theorem placed_finalSorting_eq : graph.finalSorting.placed = other.finalSorting.placed := by
  have hagrees := agrees_place hgraph hother hnodes hclosure graph.nodes.length
    (consistent_startSorting hgraph) (consistent_startSorting hother)
    (agrees_startSorting hgraph hother hnodes hclosure)
  unfold finalSorting
  rw [← hnodes]
  exact hagrees.placed_eq

end

end BootTable.PhaseGraph
