import BootTable.PhaseGraph.Sort
import BootTable.Proofs.PairList
import BootTable.Proofs.PhaseGraph.Edges
import Mathlib.Data.Fintype.Card
import Mathlib.Data.List.Perm.Subperm
import Mathlib.Data.Set.Finite.List
import Mathlib.Logic.Relation

/-!
# BootTable — ordering a phase places what lies behind no circle

The ordering is a loop over a state of placed components, a queue and counters. One invariant
carries every statement about it.

* **`Sorting.Consistent`**: every counter is the number of prerequisites that are not placed yet;
  placed or queued are exactly the nodes whose counter is zero, each once; and what is placed stands
  after its prerequisites. **`Sorting.Places`** is what a step does, **`consistent_placeNext?`**
  what it preserves, **`consistent_place`** what a run preserves.
* **`queue_finalSorting`**: as many steps as there are nodes empty the queue.
* **`exists_cycle_before`**: in a finite list in which everything has a predecessor, everything
  comes after a circle. Nodes that are never placed form such a list, and so
  **`not_mem_placed_finalSorting_iff`** says which they are.
* **`sort_eq_ok_iff`**, **`sort_eq_error_iff`**: a graph is ordered exactly if it has no circle.
-/

namespace BootTable.PhaseGraph

open Relation

/-! ## Releasing what waits -/

namespace Sorting

theorem lookup_map_replace (id other : ComponentId) (left : Nat)
    (valences : List (ComponentId × Nat)) :
    (valences.map fun entry => if entry.1 = id then (id, left) else entry).lookup other =
      if other = id then (valences.lookup other).map fun _ => left
      else valences.lookup other := by
  induction valences with
  | nil => simp
  | cons entry others ih =>
    rw [List.map_cons, lookup_cons_eq_ite, lookup_cons_eq_ite, ih]
    by_cases hentry : entry.1 = id
    · by_cases hother : other = id
      · simp [hentry, hother]
      · simp [hentry, hother]
    · by_cases hother : other = entry.1
      · simp [hentry, hother]
      · simp [hentry, hother]

theorem valence_release (sorting : Sorting) (id other : ComponentId) :
    (sorting.release id).valence other =
      if other = id then sorting.valence id - 1 else sorting.valence other := by
  unfold valence release
  rw [lookup_map_replace]
  by_cases h : other = id
  · subst h
    cases hlookup : sorting.valences.lookup other with
    | none => simp [valence, hlookup]
    | some n => simp [valence, hlookup]
  · simp [h]

theorem placed_foldl_release (sorting : Sorting) (ids : List ComponentId) :
    (ids.foldl release sorting).placed = sorting.placed := by
  induction ids generalizing sorting with
  | nil => rfl
  | cons id others ih =>
    rw [List.foldl_cons, ih]
    rfl

theorem valence_foldl_release (sorting : Sorting) {ids : List ComponentId} (hids : ids.Nodup)
    (other : ComponentId) :
    (ids.foldl release sorting).valence other =
      if other ∈ ids then sorting.valence other - 1 else sorting.valence other := by
  induction ids generalizing sorting with
  | nil => rfl
  | cons id others ih =>
    rw [List.nodup_cons] at hids
    rw [List.foldl_cons, ih _ hids.2, valence_release]
    by_cases h : other = id
    · subst h
      rw [if_neg hids.1, if_pos rfl, if_pos List.mem_cons_self]
    · simp [h]

theorem queue_foldl_release (sorting : Sorting) {ids : List ComponentId} (hids : ids.Nodup) :
    (ids.foldl release sorting).queue =
      sorting.queue ++ ids.filter fun id => sorting.valence id - 1 = 0 := by
  induction ids generalizing sorting with
  | nil => simp
  | cons id others ih =>
    rw [List.nodup_cons] at hids
    have hrest : (others.filter fun other => (sorting.release id).valence other - 1 = 0) =
        others.filter fun other => sorting.valence other - 1 = 0 := by
      apply List.filter_congr
      intro other hother
      have hne : other ≠ id := fun h => hids.1 (h ▸ hother)
      rw [valence_release, if_neg hne]
    have hqueue : (sorting.release id).queue =
        if sorting.valence id - 1 = 0 then sorting.queue ++ [id] else sorting.queue := rfl
    rw [List.foldl_cons, ih _ hids.2, hrest, hqueue, List.filter_cons]
    by_cases h : sorting.valence id - 1 = 0
    · simp [h]
    · simp [h]

end Sorting

/-! ## Consistent states -/

/-- What a component still waits for. -/
def remaining (graph : PhaseGraph) (placed : List ComponentId) (id : ComponentId) :
    List ComponentId :=
  (graph.prerequisites id).filter fun provider => provider ∉ placed

@[simp] theorem remaining_nil (graph : PhaseGraph) (id : ComponentId) :
    graph.remaining [] id = graph.prerequisites id := by
  simp [remaining]

theorem nodup_remaining {graph : PhaseGraph} (hgraph : graph.WellFormed)
    (placed : List ComponentId) (id : ComponentId) : (graph.remaining placed id).Nodup :=
  (hgraph.nodup_prerequisites id).sublist List.filter_sublist

theorem mem_remaining {graph : PhaseGraph} {placed : List ComponentId}
    {provider id : ComponentId} :
    provider ∈ graph.remaining placed id ↔ graph.Precedes provider id ∧ provider ∉ placed := by
  simp [remaining, mem_prerequisites]

theorem remaining_eq_nil_iff {graph : PhaseGraph} {placed : List ComponentId}
    {id : ComponentId} :
    graph.remaining placed id = [] ↔
      ∀ provider, graph.Precedes provider id → provider ∈ placed := by
  simp [remaining, List.filter_eq_nil_iff, mem_prerequisites]

/-- The invariant of the ordering. -/
structure Sorting.Consistent (graph : PhaseGraph) (sorting : Sorting) : Prop where
  /-- Nothing is placed or queued twice. -/
  nodup : (sorting.placed ++ sorting.queue).Nodup
  /-- A counter is the number of prerequisites that are not placed yet. -/
  valence_eq : ∀ id, sorting.valence id = (graph.remaining sorting.placed id).length
  /-- Placed or queued is what waits for nothing any more. -/
  mem_iff : ∀ id, id ∈ sorting.placed ++ sorting.queue ↔
    id ∈ graph.nodes ∧ graph.remaining sorting.placed id = []
  /-- What is placed stands after its prerequisites. -/
  ordered : ∀ {provider consumer}, graph.Precedes provider consumer →
    consumer ∈ sorting.placed → [provider, consumer].Sublist sorting.placed

variable {graph : PhaseGraph}

theorem consistent_startSorting (hgraph : graph.WellFormed) :
    graph.startSorting.Consistent graph where
  nodup := hgraph.nodup_nodes.sublist List.filter_sublist
  valence_eq id := by
    unfold Sorting.valence
    rw [startSorting, remaining_nil, lookup_map_graph]
    by_cases h : id ∈ graph.nodes
    · simp [h]
    · have hnone : graph.prerequisites id = [] := by
        rw [List.eq_nil_iff_forall_not_mem]
        intro provider hprovider
        exact h (hgraph.consumer_mem (mem_prerequisites.mp hprovider))
      simp [h, hnone]
  mem_iff id := by
    simp [startSorting, entryNodes]
  ordered _ h := absurd h List.not_mem_nil

/-! ## One step -/

/-- Everything that a step does when it places the head of the queue. -/
structure Sorting.Places (graph : PhaseGraph) (next : ComponentId) (others : List ComponentId)
    (sorting after : Sorting) : Prop where
  queue_eq : sorting.queue = next :: others
  placed_eq : after.placed = sorting.placed ++ [next]
  queue_after_eq : after.queue =
    others ++ (graph.dependents next).filter (fun id => sorting.valence id - 1 = 0)
  valence_eq : ∀ id, after.valence id =
    if id ∈ graph.dependents next then sorting.valence id - 1 else sorting.valence id

theorem exists_places (hgraph : graph.WellFormed) {sorting after : Sorting}
    (h : graph.placeNext? sorting = some after) :
    ∃ next others, Sorting.Places graph next others sorting after := by
  unfold placeNext? at h
  cases hqueue : sorting.queue with
  | nil => simp [hqueue] at h
  | cons next others =>
    rw [hqueue] at h
    simp only [Option.some.injEq] at h
    subst h
    refine ⟨next, others, hqueue, Sorting.placed_foldl_release _ _, ?_, fun id => ?_⟩
    · rw [Sorting.queue_foldl_release _ (hgraph.nodup_dependents next)]
      rfl
    · rw [Sorting.valence_foldl_release _ (hgraph.nodup_dependents next)]
      rfl

theorem placeNext?_eq_none_iff {sorting : Sorting} :
    graph.placeNext? sorting = none ↔ sorting.queue = [] := by
  unfold placeNext?
  cases sorting.queue <;> simp

theorem remaining_concat (hgraph : graph.WellFormed) (placed : List ComponentId)
    (next id : ComponentId) :
    graph.remaining (placed ++ [next]) id = (graph.remaining placed id).erase next := by
  rw [(nodup_remaining hgraph placed id).erase_eq_filter]
  unfold remaining
  rw [List.filter_filter]
  apply List.filter_congr
  intro provider _
  by_cases hnext : provider = next
  · simp [hnext]
  · simp [hnext]

namespace Sorting.Places

variable {next : ComponentId} {others : List ComponentId} {sorting after : Sorting}
  (hstep : Places graph next others sorting after)

include hstep

theorem append_eq : after.placed ++ after.queue = (sorting.placed ++ sorting.queue) ++
    (graph.dependents next).filter (fun id => sorting.valence id - 1 = 0) := by
  rw [hstep.placed_eq, hstep.queue_after_eq, hstep.queue_eq]
  simp

variable (h : sorting.Consistent graph)

include h

/-- The head of the queue waits for nothing any more, and is not placed yet. -/
theorem ready : next ∈ graph.nodes ∧ graph.remaining sorting.placed next = [] ∧
    next ∉ sorting.placed := by
  have hqueued : next ∈ sorting.queue := by
    rw [hstep.queue_eq]
    exact List.mem_cons_self
  obtain ⟨hnode, hnone⟩ := (h.mem_iff next).mp (List.mem_append_right _ hqueued)
  have hdisjoint := (List.nodup_append.mp h.nodup).2.2
  exact ⟨hnode, hnone, fun hplaced => hdisjoint next hplaced next hqueued rfl⟩

theorem mem_remaining_iff (id : ComponentId) :
    next ∈ graph.remaining sorting.placed id ↔ id ∈ graph.dependents next := by
  rw [mem_remaining, mem_dependents]
  exact and_iff_left (hstep.ready h).2.2

/-- What was ready before does not wait for the head of the queue. -/
theorem not_mem_dependents {id : ComponentId} (hready : id ∈ sorting.placed ++ sorting.queue) :
    id ∉ graph.dependents next := by
  rw [← hstep.mem_remaining_iff h, ((h.mem_iff id).mp hready).2]
  exact List.not_mem_nil

variable (hgraph : graph.WellFormed)

include hgraph

theorem valence_after_eq (id : ComponentId) :
    after.valence id = (graph.remaining after.placed id).length := by
  rw [hstep.valence_eq, hstep.placed_eq, remaining_concat hgraph, List.length_erase, h.valence_eq]
  by_cases hdependent : id ∈ graph.dependents next
  · rw [if_pos hdependent, if_pos ((hstep.mem_remaining_iff h id).mpr hdependent)]
  · rw [if_neg hdependent, if_neg (mt (hstep.mem_remaining_iff h id).mp hdependent)]

theorem nodup_after : (after.placed ++ after.queue).Nodup := by
  rw [hstep.append_eq, List.nodup_append]
  refine ⟨h.nodup, (hgraph.nodup_dependents next).sublist List.filter_sublist, ?_⟩
  rintro id hready other hother rfl
  exact hstep.not_mem_dependents h hready (List.mem_of_mem_filter hother)

theorem mem_after_iff (id : ComponentId) : id ∈ after.placed ++ after.queue ↔
    id ∈ graph.nodes ∧ graph.remaining after.placed id = [] := by
  rw [hstep.append_eq, List.mem_append, List.mem_filter, decide_eq_true_eq,
    ← List.length_eq_zero_iff, ← hstep.valence_after_eq h hgraph, hstep.valence_eq]
  by_cases hready : id ∈ sorting.placed ++ sorting.queue
  · obtain ⟨hnode, hnone⟩ := (h.mem_iff id).mp hready
    have hzero : sorting.valence id = 0 := by rw [h.valence_eq, hnone, List.length_nil]
    simp [hready, hnode, hstep.not_mem_dependents h hready, hzero]
  -- What was not ready becomes ready exactly if its last prerequisite was the head of the queue.
  · have hpositive : id ∈ graph.nodes → sorting.valence id ≠ 0 := by
      intro hnode hzero
      rw [h.valence_eq, List.length_eq_zero_iff] at hzero
      exact hready ((h.mem_iff id).mpr ⟨hnode, hzero⟩)
    by_cases hdependent : id ∈ graph.dependents next
    · have hnode := hgraph.consumer_mem (mem_dependents.mp hdependent)
      simp [hready, hdependent, hnode]
    · simp only [hready, hdependent, false_and, or_self, if_false, false_iff, not_and]
      exact hpositive

omit hgraph in
theorem ordered_after {provider consumer : ComponentId} (hedge : graph.Precedes provider consumer)
    (hmem : consumer ∈ after.placed) : [provider, consumer].Sublist after.placed := by
  rw [hstep.placed_eq] at hmem ⊢
  rcases List.mem_append.mp hmem with hmem | hmem
  · exact (h.ordered hedge hmem).trans (List.sublist_append_left _ _)
  · rw [List.mem_singleton.mp hmem] at hedge ⊢
    have hprovider := remaining_eq_nil_iff.mp (hstep.ready h).2.1 provider hedge
    exact (List.singleton_sublist.mpr hprovider).append (List.Sublist.refl [next])

end Sorting.Places

theorem consistent_placeNext? (hgraph : graph.WellFormed) {sorting after : Sorting}
    (h : sorting.Consistent graph) (hafter : graph.placeNext? sorting = some after) :
    after.Consistent graph := by
  obtain ⟨next, others, hstep⟩ := exists_places hgraph hafter
  exact {
    nodup := hstep.nodup_after h hgraph
    valence_eq := hstep.valence_after_eq h hgraph
    mem_iff := hstep.mem_after_iff h hgraph
    ordered := hstep.ordered_after h }

/-! ## The whole run -/

theorem place_of_none {sorting : Sorting} (h : graph.placeNext? sorting = none) (steps : Nat) :
    graph.place steps sorting = sorting := by
  cases steps with
  | zero => rfl
  | succ steps => rw [place, h]

theorem place_succ_of_some {sorting next : Sorting} (h : graph.placeNext? sorting = some next)
    (steps : Nat) : graph.place (steps + 1) sorting = graph.place steps next := by
  rw [place, h]

theorem consistent_place (hgraph : graph.WellFormed) (steps : Nat) {sorting : Sorting}
    (h : sorting.Consistent graph) : (graph.place steps sorting).Consistent graph := by
  induction steps generalizing sorting with
  | zero => exact h
  | succ steps ih =>
    cases hstep : graph.placeNext? sorting with
    | none =>
      rw [place_of_none hstep]
      exact h
    | some next =>
      rw [place_succ_of_some hstep]
      exact ih (consistent_placeNext? hgraph h hstep)

theorem consistent_finalSorting (hgraph : graph.WellFormed) :
    graph.finalSorting.Consistent graph :=
  consistent_place hgraph _ (consistent_startSorting hgraph)

namespace Sorting.Consistent

variable {sorting : Sorting}

theorem nodup_placed (h : sorting.Consistent graph) : sorting.placed.Nodup :=
  h.nodup.sublist (List.sublist_append_left _ _)

theorem mem_nodes (h : sorting.Consistent graph) {id : ComponentId}
    (hmem : id ∈ sorting.placed ++ sorting.queue) : id ∈ graph.nodes :=
  ((h.mem_iff id).mp hmem).1

/-- No more can be placed or queued than there are nodes. -/
theorem length_le (h : sorting.Consistent graph) :
    sorting.placed.length + sorting.queue.length ≤ graph.nodes.length := by
  rw [← List.length_append]
  exact (h.nodup.subperm fun _ hmem => h.mem_nodes hmem).length_le

end Sorting.Consistent

theorem queue_place (hgraph : graph.WellFormed) (steps : Nat) {sorting : Sorting}
    (h : sorting.Consistent graph)
    (hsteps : graph.nodes.length ≤ sorting.placed.length + steps) :
    (graph.place steps sorting).queue = [] := by
  induction steps generalizing sorting with
  | zero =>
    -- Everything is placed, so nothing can be queued.
    have hle := h.length_le
    exact List.length_eq_zero_iff.mp (by show sorting.queue.length = 0; omega)
  | succ steps ih =>
    cases hstep : graph.placeNext? sorting with
    | none =>
      rw [place_of_none hstep]
      exact placeNext?_eq_none_iff.mp hstep
    | some next =>
      rw [place_succ_of_some hstep]
      apply ih (consistent_placeNext? hgraph h hstep)
      obtain ⟨id, rest, hplaces⟩ := exists_places hgraph hstep
      rw [hplaces.placed_eq, List.length_append, List.length_singleton]
      omega

theorem queue_finalSorting (hgraph : graph.WellFormed) : graph.finalSorting.queue = [] :=
  queue_place hgraph _ (consistent_startSorting hgraph) (Nat.le_add_left _ _)

theorem mem_placed_finalSorting_iff (hgraph : graph.WellFormed) {id : ComponentId} :
    id ∈ graph.finalSorting.placed ↔ id ∈ graph.nodes ∧
      ∀ provider, graph.Precedes provider id → provider ∈ graph.finalSorting.placed := by
  have hmem := (consistent_finalSorting hgraph).mem_iff id
  rw [queue_finalSorting hgraph, List.append_nil, remaining_eq_nil_iff] at hmem
  exact hmem

/-! ## Circles -/

/-- No component waits for itself, directly or through others. -/
def Acyclic (graph : PhaseGraph) : Prop :=
  ∀ id, ¬TransGen graph.Precedes id id

/-- Where everything in a finite list has a predecessor in it, everything comes after a circle. -/
theorem exists_cycle_before {α : Type} {r : α → α → Prop} {as : List α}
    (hpred : ∀ a ∈ as, ∃ b ∈ as, r b a) {a : α} (ha : a ∈ as) :
    ∃ c ∈ as, TransGen r c c ∧ ReflTransGen r c a := by
  by_contra hnone
  push Not at hnone
  -- Without circles, to come before one another is well-founded on the finitely many members that
  -- come before `a`; but none of them comes first.
  let Before := { b // b ∈ as ∧ ReflTransGen r b a }
  have hfinite : Finite Before :=
    Set.Finite.subset as.finite_toSet fun b hb => hb.1
  let after : Before → Before → Prop := fun b c => TransGen r b.1 c.1
  have htrans : IsTrans Before after := ⟨fun _ _ _ => TransGen.trans⟩
  have hirrefl : Std.Irrefl after := ⟨fun b hb => hnone b.1 b.2.1 hb b.2.2⟩
  have hfounded : WellFounded after := Finite.wellFounded_of_trans_of_irrefl after
  have hempty (b : Before) : False := by
    induction b using hfounded.induction with
    | _ b ih =>
      obtain ⟨c, hc, hedge⟩ := hpred b.1 b.2.1
      exact ih ⟨c, hc, .head hedge b.2.2⟩ (.single hedge)
  exact hempty ⟨a, ha, .refl⟩

/-- In a list without repetition, what stands before something has the smaller index. -/
theorem idxOf_lt_of_pair_sublist {α : Type} [DecidableEq α] {as : List α} (hnodup : as.Nodup)
    {a b : α} (h : [a, b].Sublist as) : as.idxOf a < as.idxOf b ∧ b ∈ as := by
  induction as with
  | nil => cases h
  | cons first others ih =>
    rw [List.nodup_cons] at hnodup
    cases h with
    | cons _ h =>
      obtain ⟨hlt, hb⟩ := ih hnodup.2 h
      have ha : a ∈ others := h.subset List.mem_cons_self
      have hane : first ≠ a := fun heq => hnodup.1 (heq ▸ ha)
      have hbne : first ≠ b := fun heq => hnodup.1 (heq ▸ hb)
      rw [List.idxOf_cons_ne _ hane, List.idxOf_cons_ne _ hbne]
      exact ⟨Nat.succ_lt_succ hlt, List.mem_cons_of_mem _ hb⟩
    | cons_cons _ h =>
      have hb : b ∈ others := List.singleton_sublist.mp h
      have hbne : a ≠ b := fun heq => hnodup.1 (heq ▸ hb)
      rw [List.idxOf_cons_self, List.idxOf_cons_ne _ hbne]
      exact ⟨Nat.succ_pos _, List.mem_cons_of_mem _ hb⟩

/-- A list of components, each at most once, in which each comes after all that must complete
before it. -/
structure Orderly (precedes : ComponentId → ComponentId → Prop) (ids : List ComponentId) :
    Prop where
  nodup : ids.Nodup
  ordered : ∀ {provider consumer}, precedes provider consumer → consumer ∈ ids →
    [provider, consumer].Sublist ids

/-- Positions grow along every way that ends in an orderly list. -/
theorem Orderly.idxOf_lt_of_transGen {precedes : ComponentId → ComponentId → Prop}
    {ids : List ComponentId} (h : Orderly precedes ids) {first last : ComponentId}
    (hway : TransGen precedes first last) (hlast : last ∈ ids) :
    first ∈ ids ∧ ids.idxOf first < ids.idxOf last := by
  have hedge {provider consumer : ComponentId} (hedge : precedes provider consumer)
      (hmem : consumer ∈ ids) : provider ∈ ids ∧ ids.idxOf provider < ids.idxOf consumer :=
    have hpair := h.ordered hedge hmem
    ⟨hpair.subset List.mem_cons_self, (idxOf_lt_of_pair_sublist h.nodup hpair).1⟩
  induction hway using TransGen.head_induction_on with
  | single hlink => exact hedge hlink hlast
  | head hlink _ ih =>
    obtain ⟨hmem, hlt⟩ := hedge hlink ih.1
    exact ⟨hmem, Nat.lt_trans hlt ih.2⟩

/-- Nothing in an orderly list lies on a circle or behind one. -/
theorem Orderly.not_mem_of_cycle {precedes : ComponentId → ComponentId → Prop}
    {ids : List ComponentId} (h : Orderly precedes ids) {origin id : ComponentId}
    (hcycle : TransGen precedes origin origin) (hway : ReflTransGen precedes origin id) :
    id ∉ ids := by
  intro hmem
  have horigin : origin ∈ ids := by
    rcases reflTransGen_iff_eq_or_transGen.mp hway with rfl | hway
    · exact hmem
    · exact (h.idxOf_lt_of_transGen hway hmem).1
  exact Nat.lt_irrefl _ (h.idxOf_lt_of_transGen hcycle horigin).2

theorem Sorting.Consistent.orderly {sorting : Sorting} (h : sorting.Consistent graph) :
    Orderly graph.Precedes sorting.placed where
  nodup := h.nodup_placed
  ordered := h.ordered

/-- What is never placed are the components on a circle and those that wait for one. -/
theorem not_mem_placed_finalSorting_iff (hgraph : graph.WellFormed) {id : ComponentId}
    (hnode : id ∈ graph.nodes) : id ∉ graph.finalSorting.placed ↔
      ∃ origin, TransGen graph.Precedes origin origin ∧
        ReflTransGen graph.Precedes origin id := by
  constructor
  · intro hwaiting
    -- Whatever is never placed waits for something that is never placed either.
    have hpred : ∀ a ∈ graph.nodes.filter fun a => a ∉ graph.finalSorting.placed,
        ∃ b ∈ graph.nodes.filter fun b => b ∉ graph.finalSorting.placed, graph.Precedes b a := by
      intro a ha
      obtain ⟨hmem, hnot⟩ : a ∈ graph.nodes ∧ a ∉ graph.finalSorting.placed := by
        simpa using ha
      rw [mem_placed_finalSorting_iff hgraph] at hnot
      push Not at hnot
      obtain ⟨b, hedge, hb⟩ := hnot hmem
      exact ⟨b, by simpa using ⟨hgraph.provider_mem hedge, hb⟩, hedge⟩
    have hmem : id ∈ graph.nodes.filter fun a => a ∉ graph.finalSorting.placed := by
      simpa using ⟨hnode, hwaiting⟩
    obtain ⟨origin, -, hcycle, hway⟩ := exists_cycle_before hpred hmem
    exact ⟨origin, hcycle, hway⟩
  · rintro ⟨origin, hcycle, hway⟩
    exact (consistent_finalSorting hgraph).orderly.not_mem_of_cycle hcycle hway

theorem acyclic_iff_forall_placed (hgraph : graph.WellFormed) :
    graph.Acyclic ↔ ∀ id ∈ graph.nodes, id ∈ graph.finalSorting.placed := by
  constructor
  · intro hacyclic id hnode
    by_contra hwaiting
    obtain ⟨origin, hcycle, -⟩ := (not_mem_placed_finalSorting_iff hgraph hnode).mp hwaiting
    exact hacyclic origin hcycle
  · intro hall id hcycle
    obtain ⟨_, -, hedge⟩ := TransGen.tail'_iff.mp hcycle
    have hnode := hgraph.consumer_mem hedge
    exact (not_mem_placed_finalSorting_iff hgraph hnode).mpr ⟨id, hcycle, .refl⟩ (hall id hnode)

theorem placed_perm_nodes (hgraph : graph.WellFormed) (hacyclic : graph.Acyclic) :
    graph.finalSorting.placed.Perm graph.nodes := by
  have hfinal := consistent_finalSorting hgraph
  refine (List.perm_ext_iff_of_nodup hfinal.nodup_placed hgraph.nodup_nodes).mpr fun id => ⟨?_, ?_⟩
  · exact fun h => hfinal.mem_nodes (List.mem_append_left _ h)
  · exact (acyclic_iff_forall_placed hgraph).mp hacyclic id

theorem length_placed_eq_iff (hgraph : graph.WellFormed) :
    graph.finalSorting.placed.length = graph.nodes.length ↔ graph.Acyclic := by
  constructor
  · intro h
    have hfinal := consistent_finalSorting hgraph
    have hsubperm : graph.finalSorting.placed.Subperm graph.nodes :=
      hfinal.nodup_placed.subperm fun _ hmem => hfinal.mem_nodes (List.mem_append_left _ hmem)
    rw [acyclic_iff_forall_placed hgraph]
    intro id hnode
    exact (hsubperm.perm_of_length_le (Nat.le_of_eq h.symm)).mem_iff.mpr hnode
  · intro hacyclic
    exact (placed_perm_nodes hgraph hacyclic).length_eq

theorem sort_eq_ok_iff (hgraph : graph.WellFormed) {order : List ComponentId} :
    graph.sort = .ok order ↔ graph.Acyclic ∧ order = graph.finalSorting.placed := by
  unfold sort
  by_cases h : graph.Acyclic
  · simp [(length_placed_eq_iff hgraph).mpr h, h, eq_comm]
  · simp [mt (length_placed_eq_iff hgraph).mp h, h]

theorem sort_eq_error_iff (hgraph : graph.WellFormed) {cause : PlanError} :
    graph.sort = .error cause ↔ ¬graph.Acyclic ∧
      cause = .dependencyCycle graph.phase
        (graph.firstCycle (graph.unresolved graph.finalSorting))
        (graph.unresolved graph.finalSorting) := by
  unfold sort
  by_cases h : graph.Acyclic
  · simp [(length_placed_eq_iff hgraph).mpr h, h]
  · simp [mt (length_placed_eq_iff hgraph).mp h, h, eq_comm]

theorem perm_of_sort (hgraph : graph.WellFormed) {order : List ComponentId}
    (h : graph.sort = .ok order) : order.Perm graph.nodes := by
  obtain ⟨hacyclic, rfl⟩ := (sort_eq_ok_iff hgraph).mp h
  exact placed_perm_nodes hgraph hacyclic

theorem pair_sublist_of_sort (hgraph : graph.WellFormed) {order : List ComponentId}
    (h : graph.sort = .ok order) {provider consumer : ComponentId}
    (hedge : graph.Precedes provider consumer) : [provider, consumer].Sublist order := by
  have hmem : consumer ∈ order :=
    (perm_of_sort hgraph h).mem_iff.mpr (hgraph.consumer_mem hedge)
  obtain ⟨-, rfl⟩ := (sort_eq_ok_iff hgraph).mp h
  exact (consistent_finalSorting hgraph).ordered hedge hmem

end BootTable.PhaseGraph
