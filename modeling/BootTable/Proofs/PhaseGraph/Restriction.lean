import BootTable.Proofs.PhaseGraph.Sorting

/-!
# BootTable — the order of a part of a graph

A part of a graph that waits for nothing outside is ordered as if the rest did not exist: what is
outside is placed in between, but it releases nothing of the part and so changes neither the order
in which the part queues nor its counters.

* **`follows_placeNext?`**: a step that places something of the part is a step of the part, and any
  other step leaves the part as it is.
* **`filter_placed_finalSorting`**: the order of the graph, without what is outside, is the order of
  the part.
* **`head?_placed_finalSorting`**: the first entry node is placed first.
-/

namespace BootTable.PhaseGraph

variable {graph part : PhaseGraph}

/-- One graph is the other one less the nodes outside of a part that waits for nothing there. -/
structure Restricts (keep : ComponentId → Bool) (part graph : PhaseGraph) : Prop where
  /-- The nodes of the part stay in first-seen order. -/
  nodes_eq : part.nodes = graph.nodes.filter keep
  /-- The part keeps its edges. -/
  precedes_iff : ∀ provider consumer,
    part.Precedes provider consumer ↔ keep consumer = true ∧ graph.Precedes provider consumer
  /-- What something of the part waits for is in the part. -/
  closed : ∀ {provider consumer}, graph.Precedes provider consumer → keep consumer = true →
    keep provider = true

/-- The state of the part is that of the graph less what is outside. The counters need not be
compared: they are determined by what is placed. -/
structure Sorting.Follows (keep : ComponentId → Bool) (shadow sorting : Sorting) : Prop where
  /-- What is placed of the part. -/
  placed_eq : shadow.placed = sorting.placed.filter keep
  /-- What is queued of the part. -/
  queue_eq : shadow.queue = sorting.queue.filter keep

section

variable {keep : ComponentId → Bool} (hpart : part.WellFormed) (hgraph : graph.WellFormed)
  (h : Restricts keep part graph)

include hpart hgraph h

theorem dependents_eq_filter {provider : ComponentId} :
    part.dependents provider = (graph.dependents provider).filter keep := by
  -- Both are listed in first-seen order, so it is enough to know which they are.
  have hsame (id : ComponentId) :
      id ∈ part.dependents provider ↔ id ∈ (graph.dependents provider).filter keep := by
    rw [mem_dependents, h.precedes_iff, List.mem_filter, mem_dependents]
    exact and_comm
  have hsub : ((graph.dependents provider).filter keep).Sublist part.nodes := by
    rw [h.nodes_eq]
    exact (hgraph.dependents_sublist provider).filter keep
  exact hpart.eq_of_mem_iff (hpart.dependents_sublist provider) hsub hsame

/-- What lies in the part waits for as much there as in the graph. -/
theorem length_remaining_eq {placed : List ComponentId} {id : ComponentId} (hkeep : keep id = true) :
    (part.remaining (placed.filter keep) id).length = (graph.remaining placed id).length := by
  apply List.Perm.length_eq
  rw [List.perm_ext_iff_of_nodup (nodup_remaining hpart _ id) (nodup_remaining hgraph _ id)]
  intro provider
  rw [mem_remaining, mem_remaining, h.precedes_iff, List.mem_filter]
  constructor
  · rintro ⟨⟨-, hedge⟩, hnew⟩
    exact ⟨hedge, fun hmem => hnew ⟨hmem, h.closed hedge hkeep⟩⟩
  · rintro ⟨hedge, hnew⟩
    exact ⟨⟨hkeep, hedge⟩, fun hmem => hnew hmem.1⟩

theorem valence_eq_of_follows {shadow sorting : Sorting} (hshadow : shadow.Consistent part)
    (hsorting : sorting.Consistent graph) (hfollows : shadow.Follows keep sorting)
    {id : ComponentId} (hkeep : keep id = true) : shadow.valence id = sorting.valence id := by
  rw [hshadow.valence_eq, hsorting.valence_eq, hfollows.placed_eq,
    length_remaining_eq hpart hgraph h hkeep]

theorem follows_startSorting : part.startSorting.Follows keep graph.startSorting where
  placed_eq := rfl
  queue_eq := by
    show part.entryNodes = graph.entryNodes.filter keep
    have hempty {id : ComponentId} (hkeep : keep id = true) :
        part.prerequisites id = [] ↔ graph.prerequisites id = [] := by
      have hlength : (part.remaining ([].filter keep) id).length = _ :=
        length_remaining_eq hpart hgraph h hkeep
      rw [List.filter_nil, remaining_nil, remaining_nil] at hlength
      rw [← List.length_eq_zero_iff, hlength, List.length_eq_zero_iff]
    unfold entryNodes
    rw [h.nodes_eq, List.filter_filter, List.filter_filter]
    apply List.filter_congr
    intro id _
    by_cases hkeep : keep id = true
    · simp only [hkeep, Bool.and_true, Bool.true_and]
      rw [Bool.eq_iff_iff, List.isEmpty_iff, List.isEmpty_iff]
      exact hempty hkeep
    · simp [hkeep]

theorem follows_placeNext? {shadow sorting after : Sorting} (hshadow : shadow.Consistent part)
    (hsorting : sorting.Consistent graph) (hfollows : shadow.Follows keep sorting)
    (hstep : graph.placeNext? sorting = some after) :
    shadow.Follows keep after ∨
      ∃ next, part.placeNext? shadow = some next ∧ next.Follows keep after := by
  obtain ⟨id, others, hplaces⟩ := exists_places hgraph hstep
  have hshadowed := hfollows.queue_eq
  rw [hplaces.queue_eq] at hshadowed
  by_cases hkeep : keep id = true
  · right
    rw [List.filter_cons_of_pos hkeep] at hshadowed
    obtain ⟨next, hnext⟩ : ∃ next, part.placeNext? shadow = some next := by
      rw [← Option.ne_none_iff_exists', Ne, placeNext?_eq_none_iff, hshadowed]
      exact List.cons_ne_nil _ _
    obtain ⟨id', others', hplaces'⟩ := exists_places hpart hnext
    obtain ⟨rfl, rfl⟩ : id = id' ∧ others.filter keep = others' :=
      List.cons.inj (hshadowed.symm.trans hplaces'.queue_eq)
    -- The same dependents are released: their counters are the same, and their order.
    have hreleased : (part.dependents id).filter (fun other => shadow.valence other - 1 = 0) =
        ((graph.dependents id).filter fun other => sorting.valence other - 1 = 0).filter keep := by
      rw [dependents_eq_filter hpart hgraph h, List.filter_filter, List.filter_filter]
      apply List.filter_congr
      intro other _
      by_cases hother : keep other = true
      · rw [valence_eq_of_follows hpart hgraph h hshadow hsorting hfollows hother, Bool.and_comm]
      · simp [hother]
    refine ⟨next, hnext, ?_, ?_⟩
    · rw [hplaces'.placed_eq, hplaces.placed_eq, hfollows.placed_eq, List.filter_append,
        List.filter_cons_of_pos hkeep, List.filter_nil]
    · rw [hplaces'.queue_after_eq, hplaces.queue_after_eq, hreleased, List.filter_append]
  · left
    rw [List.filter_cons_of_neg hkeep] at hshadowed
    -- What waits for something outside is outside.
    have hreleased : ((graph.dependents id).filter fun other =>
        sorting.valence other - 1 = 0).filter keep = [] := by
      rw [List.filter_eq_nil_iff]
      intro other hother hin
      exact hkeep (h.closed (mem_dependents.mp (List.mem_of_mem_filter hother)) hin)
    refine ⟨?_, ?_⟩
    · rw [hplaces.placed_eq, hfollows.placed_eq, List.filter_append,
        List.filter_cons_of_neg hkeep, List.filter_nil, List.append_nil]
    · rw [hplaces.queue_after_eq, hshadowed, List.filter_append, hreleased, List.append_nil]

theorem exists_follows_place (steps : Nat) {shadow sorting : Sorting}
    (hshadow : shadow.Consistent part) (hsorting : sorting.Consistent graph)
    (hfollows : shadow.Follows keep sorting) :
    ∃ steps', (part.place steps' shadow).Follows keep (graph.place steps sorting) := by
  induction steps generalizing shadow sorting with
  | zero => exact ⟨0, hfollows⟩
  | succ steps ih =>
    cases hstep : graph.placeNext? sorting with
    | none =>
      rw [place_of_none hstep]
      exact ⟨0, hfollows⟩
    | some after =>
      rw [place_succ_of_some hstep]
      have hafter := consistent_placeNext? hgraph hsorting hstep
      rcases follows_placeNext? hpart hgraph h hshadow hsorting hfollows hstep with
        hstays | ⟨next, hnext, hmoves⟩
      · exact ih hshadow hafter hstays
      · obtain ⟨steps', hrun⟩ := ih (consistent_placeNext? hpart hshadow hnext) hafter hmoves
        refine ⟨steps' + 1, ?_⟩
        rw [place_succ_of_some hnext]
        exact hrun

end

/-- Where two runs from one state end with an empty queue, they end alike. -/
theorem place_eq_of_queue_eq_nil {steps steps' : Nat} {sorting : Sorting}
    (h : (graph.place steps sorting).queue = []) (h' : (graph.place steps' sorting).queue = []) :
    graph.place steps sorting = graph.place steps' sorting := by
  induction steps generalizing steps' sorting with
  | zero =>
    have hnone : graph.placeNext? sorting = none := placeNext?_eq_none_iff.mpr h
    rw [place_of_none hnone, place_of_none hnone]
  | succ steps ih =>
    cases hstep : graph.placeNext? sorting with
    | none => rw [place_of_none hstep, place_of_none hstep]
    | some next =>
      cases steps' with
      | zero =>
        have hnone : graph.placeNext? sorting = none := placeNext?_eq_none_iff.mpr h'
        rw [hnone] at hstep
        cases hstep
      | succ steps' =>
        rw [place_succ_of_some hstep] at h h' ⊢
        rw [place_succ_of_some hstep]
        exact ih h h'

theorem filter_placed_finalSorting {keep : ComponentId → Bool} (hpart : part.WellFormed)
    (hgraph : graph.WellFormed) (h : Restricts keep part graph) :
    graph.finalSorting.placed.filter keep = part.finalSorting.placed := by
  obtain ⟨steps, hfollows⟩ := exists_follows_place hpart hgraph h graph.nodes.length
    (consistent_startSorting hpart) (consistent_startSorting hgraph)
    (follows_startSorting hpart hgraph h)
  -- When the queue of the graph is empty, so is that of the part, and its run is over too.
  have hqueue : (part.place steps part.startSorting).queue = [] := by
    rw [hfollows.queue_eq]
    show graph.finalSorting.queue.filter keep = []
    rw [queue_finalSorting hgraph, List.filter_nil]
  have hend : part.place steps part.startSorting = part.finalSorting :=
    place_eq_of_queue_eq_nil hqueue (queue_finalSorting hpart)
  rw [← hend]
  exact hfollows.placed_eq.symm

/-- Members that wait for nothing outside make a part of the graph of all members. -/
theorem restricts_ofMembers {keep : ComponentId → Bool} {phase : Phase} {members : List Component}
    (hclosed : ∀ p ∈ members, ∀ c ∈ members, c.WaitsFor p → keep c.id = true → keep p.id = true) :
    Restricts keep (ofMembers phase (members.filter fun component => keep component.id))
      (ofMembers phase members) where
  nodes_eq := by
    show (members.filter fun component => keep component.id).map Component.id =
      (members.map Component.id).filter keep
    rw [List.filter_map]
    rfl
  precedes_iff provider consumer := by
    rw [precedes_ofMembers_iff, precedes_ofMembers_iff]
    constructor
    · rintro ⟨p, hp, c, hc, rfl, rfl, hwaits⟩
      obtain ⟨hc, hkeep⟩ := List.mem_filter.mp hc
      exact ⟨hkeep, p, (List.mem_filter.mp hp).1, c, hc, rfl, rfl, hwaits⟩
    · rintro ⟨hkeep, p, hp, c, hc, rfl, rfl, hwaits⟩
      exact ⟨p, List.mem_filter.mpr ⟨hp, hclosed p hp c hc hwaits hkeep⟩, c,
        List.mem_filter.mpr ⟨hc, hkeep⟩, rfl, rfl, hwaits⟩
  closed := by
    intro provider consumer hedge hkeep
    obtain ⟨p, hp, c, hc, rfl, rfl, hwaits⟩ := precedes_ofMembers_iff.mp hedge
    exact hclosed p hp c hc hwaits hkeep

/-! ## What is placed first -/

theorem placed_prefix_place (hgraph : graph.WellFormed) (steps : Nat) (sorting : Sorting) :
    sorting.placed <+: (graph.place steps sorting).placed := by
  induction steps generalizing sorting with
  | zero => exact List.prefix_rfl
  | succ steps ih =>
    cases hstep : graph.placeNext? sorting with
    | none =>
      rw [place_of_none hstep]
    | some next =>
      rw [place_succ_of_some hstep]
      obtain ⟨id, rest, hplaces⟩ := exists_places hgraph hstep
      exact (hplaces.placed_eq ▸ List.prefix_append _ _).trans (ih next)

/-- Something of a part that waits for nothing outside waits for nothing at all. -/
theorem filter_entry_ne_nil (hacyclic : graph.Acyclic) {ids : List ComponentId}
    (hclosed : ∀ id ∈ ids, ∀ provider, graph.Precedes provider id → provider ∈ ids)
    {id : ComponentId} (hid : id ∈ ids) :
    (ids.filter fun id => (graph.prerequisites id).isEmpty) ≠ [] := by
  intro hnone
  -- Otherwise everything in the part would come after a circle.
  have hpred : ∀ id ∈ ids, ∃ provider ∈ ids, graph.Precedes provider id := by
    intro id hid
    have hwaits := List.filter_eq_nil_iff.mp hnone id hid
    rw [List.isEmpty_iff] at hwaits
    obtain ⟨provider, hprovider⟩ := List.exists_mem_of_ne_nil _ hwaits
    have hedge := mem_prerequisites.mp hprovider
    exact ⟨provider, hclosed id hid provider hedge, hedge⟩
  obtain ⟨other, -, hcycle, -⟩ := exists_cycle_before hpred hid
  exact hacyclic other hcycle

theorem head?_placed_finalSorting (hgraph : graph.WellFormed) {first : ComponentId}
    (h : graph.entryNodes.head? = some first) :
    graph.finalSorting.placed.head? = some first := by
  obtain ⟨others, hentries⟩ := List.head?_eq_some_iff.mp h
  have hnode : first ∈ graph.nodes :=
    List.mem_of_mem_filter (hentries ▸ List.mem_cons_self : first ∈ graph.entryNodes)
  obtain ⟨count, hcount⟩ := Nat.exists_eq_succ_of_ne_zero
    (List.length_pos_of_mem hnode).ne'
  obtain ⟨next, hstep⟩ : ∃ next, graph.placeNext? graph.startSorting = some next := by
    rw [← Option.ne_none_iff_exists', Ne, placeNext?_eq_none_iff]
    show graph.entryNodes ≠ []
    rw [hentries]
    exact List.cons_ne_nil _ _
  obtain ⟨id, rest, hplaces⟩ := exists_places hgraph hstep
  have hid : first = id := by
    have hsame : graph.entryNodes = id :: rest := hplaces.queue_eq
    rw [hentries] at hsame
    exact (List.cons.inj hsame).1
  obtain ⟨later, hlater⟩ := placed_prefix_place hgraph count next
  unfold finalSorting
  rw [hcount, Nat.succ_eq_add_one, place_succ_of_some hstep, ← hlater, hplaces.placed_eq, hid]
  rfl

end BootTable.PhaseGraph
