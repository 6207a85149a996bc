import BootTable.Proofs.Plan.Stability
import BootTable.Proofs.Registry.FirstBreach
import Mathlib.Algebra.BigOperators.Group.Finset.Basic
import Mathlib.Data.Set.Card

/-!
# BootTable — what the graph of a phase records

A graph can be kept as two tables that have a row for each node: in one, what the node waits for; in
the other, what waits for the node. Nothing ties the tables together but the way in which they are
filled. Edges are found as the members are gone through: for each member its explicit dependencies,
then the providers of each capability that it needs. Every edge that is found, be it for the
second time, is noted in a row of either table, and a row takes no place twice. The tables that come
of this are those of the graph, whose edges are what was found, once each.

* **`Tables.ofEdges_eq`**: what filling the tables comes to; **`rows_listedBy_concat`** is the step.
* **`edges_of_build`**: the edges of a graph that was built are those that are found.
* **`depicts_of_build`**: what a graph that was built says about the components of the phase.
* **`prerequisites_of_build`**: in which order the prerequisites of a component are listed.
-/

namespace BootTable

theorem Edge.eq_of_ends {one two : Edge} (hconsumer : one.consumer = two.consumer)
    (hprovider : one.provider = two.provider) : one = two := by
  cases one
  cases two
  rw [Edge.mk.injEq]
  exact ⟨hprovider, hconsumer⟩

namespace PhaseGraph

/-! ## Two tables -/

/-- For every node, by places among the nodes, what it waits for and what waits for it. -/
structure Tables where
  prerequisites : List (List Nat)
  dependents : List (List Nat)
deriving DecidableEq, Repr

namespace Tables

/-- A row takes a place that it does not have, at its end. -/
def note (place : Nat) (row : List Nat) : List Nat :=
  if place ∈ row then row else row ++ [place]

def start (size : Nat) : Tables :=
  { prerequisites := List.replicate size []
    dependents := List.replicate size [] }

def addEdge (nodes : List ComponentId) (tables : Tables) (edge : Edge) : Tables :=
  { prerequisites := tables.prerequisites.modify (nodes.idxOf edge.consumer)
      (note (nodes.idxOf edge.provider))
    dependents := tables.dependents.modify (nodes.idxOf edge.provider)
      (note (nodes.idxOf edge.consumer)) }

/-- The tables after edges were added one after the other. -/
def ofEdges (nodes : List ComponentId) (edges : List Edge) : Tables :=
  edges.foldl (addEdge nodes) (start nodes.length)

end Tables

/-- A row for each node, with the places of what is listed for it. -/
def rows (nodes : List ComponentId) (listed : ComponentId → List ComponentId) : List (List Nat) :=
  nodes.map fun id => (listed id).map fun other => nodes.idxOf other

/-- The tables of a graph. -/
def tables (graph : PhaseGraph) : Tables :=
  { prerequisites := rows graph.nodes graph.prerequisites
    dependents := rows graph.nodes graph.dependents }

/-- To change the row of a node is to change what is listed for it. -/
theorem modify_map_idxOf {α β : Type} [DecidableEq α] {as : List α} (hnodup : as.Nodup) (a : α)
    (f : α → β) (change : β → β) :
    (as.map f).modify (as.idxOf a) change =
      as.map fun b => if b = a then change (f b) else f b := by
  apply List.ext_getElem?
  intro place
  rw [List.getElem?_modify, List.getElem?_map, List.getElem?_map]
  cases hplace : as[place]? with
  | none => rfl
  | some b =>
    obtain ⟨hlt, rfl⟩ := List.getElem?_eq_some_iff.mp hplace
    have hown : as.idxOf a = place ↔ as[place] = a := by
      constructor
      · rintro rfl
        exact List.getElem_idxOf hlt
      · intro heq
        rw [← heq]
        exact hnodup.idxOf_getElem place hlt
    by_cases h : as[place] = a
    · simp [hown.mpr h, h]
    · simp [mt hown.mp h, h]

/-! ## Filling the tables -/

section

variable (key value : Edge → ComponentId)

/-- For the node at one end of edges, those at the other ends, once each. -/
def listedBy (edges : List Edge) (id : ComponentId) : List ComponentId :=
  ((firstOccurrences edges).filter fun edge => key edge = id).map value

variable {key value}

theorem listedBy_concat (edges : List Edge) (edge : Edge) (id : ComponentId) :
    listedBy key value (edges ++ [edge]) id =
      if edge ∉ edges ∧ key edge = id then listedBy key value edges id ++ [value edge]
      else listedBy key value edges id := by
  unfold listedBy
  rw [firstOccurrences_concat]
  by_cases hmem : edge ∈ edges
  · simp [hmem]
  · by_cases hid : key edge = id
    · simp [hmem, hid]
    · simp [hmem, hid]

variable {nodes : List ComponentId} {edges : List Edge} {edge : Edge}
  (hends : ∀ {one two : Edge}, key one = key two → value one = value two → one = two)
  (hvalue : ∀ other ∈ edges, value other ∈ nodes)

include hends hvalue

/-- Places stand for nodes, so the row of one end of an edge has the place of the other end exactly
if the edge is there. -/
theorem mem_row_iff : nodes.idxOf (value edge) ∈
    (listedBy key value edges (key edge)).map (fun other => nodes.idxOf other) ↔ edge ∈ edges := by
  simp only [listedBy, List.mem_map, List.mem_filter, mem_firstOccurrences, decide_eq_true_eq]
  constructor
  · rintro ⟨_, ⟨other, ⟨hother, hkey⟩, rfl⟩, hplace⟩
    have hsame : value other = value edge := (List.idxOf_inj (hvalue other hother)).mp hplace
    rw [← hends hkey hsame]
    exact hother
  · intro hmem
    exact ⟨value edge, ⟨edge, ⟨hmem, rfl⟩, rfl⟩, rfl⟩

/-- One more edge is noted in the row of one of its ends. -/
theorem rows_listedBy_concat (hnodup : nodes.Nodup) :
    rows nodes (listedBy key value (edges ++ [edge])) =
      (rows nodes (listedBy key value edges)).modify (nodes.idxOf (key edge))
        (Tables.note (nodes.idxOf (value edge))) := by
  unfold rows
  rw [modify_map_idxOf hnodup]
  refine List.map_congr_left fun id _ => ?_
  rw [listedBy_concat]
  by_cases hid : id = key edge
  · subst hid
    rw [if_pos rfl, Tables.note]
    by_cases hmem : edge ∈ edges
    · rw [if_pos ((mem_row_iff hends hvalue).mpr hmem), if_neg fun h => h.1 hmem]
    · rw [if_neg (mt (mem_row_iff hends hvalue).mp hmem), if_pos ⟨hmem, rfl⟩, List.map_append,
        List.map_singleton]
  · rw [if_neg hid, if_neg fun h => hid h.2.symm]

end

/-- The tables list, for every node, the other ends of its edges, once each and in the order in which
the edges were added. -/
theorem Tables.ofEdges_eq {nodes : List ComponentId} (hnodup : nodes.Nodup) {edges : List Edge}
    (hedges : ∀ edge ∈ edges, edge.provider ∈ nodes ∧ edge.consumer ∈ nodes) :
    ofEdges nodes edges =
      { prerequisites := rows nodes (listedBy Edge.consumer Edge.provider edges)
        dependents := rows nodes (listedBy Edge.provider Edge.consumer edges) } := by
  induction edges using List.reverseRecOn with
  | nil => simp [ofEdges, start, rows, listedBy, firstOccurrences, List.map_const']
  | append_singleton edges edge ih =>
    have hbefore : ∀ other ∈ edges, other.provider ∈ nodes ∧ other.consumer ∈ nodes :=
      fun other hother => hedges other (List.mem_append_left _ hother)
    have hstep : ofEdges nodes (edges ++ [edge]) = addEdge nodes (ofEdges nodes edges) edge := by
      simp [ofEdges, List.foldl_append]
    rw [hstep, ih hbefore, addEdge,
      rows_listedBy_concat Edge.eq_of_ends (fun other hother => (hbefore other hother).1) hnodup,
      rows_listedBy_concat (fun hprovider hconsumer => Edge.eq_of_ends hconsumer hprovider)
        (fun other hother => (hbefore other hother).2) hnodup]

/-! ## The edges that are found -/

/-- Everything that members are found to wait for, repetitions included. -/
def foundEdges (index : CapabilityIndex) (members : List Component) : List Edge :=
  edgesBy (fun component =>
    (component.dependsOn.toList ++ component.needs.toList.flatMap index.providers).filter
      fun provider => provider ∈ members.map Component.id) members

/-- Edges to different members are different, so each member can drop its own repetitions. -/
theorem edgesBy_firstOccurrences (names : Component → List ComponentId) {members : List Component}
    (hids : (members.map Component.id).Nodup) :
    edgesBy (fun component => firstOccurrences (names component)) members =
      firstOccurrences (edgesBy names members) := by
  induction members with
  | nil => rfl
  | cons component others ih =>
    rw [List.map_cons, List.nodup_cons] at hids
    have hnew : ∀ edge ∈ firstOccurrences (edgesBy names others),
        edge ∉ (names component).map fun provider => (⟨provider, component.id⟩ : Edge) := by
      intro edge hedge hown
      obtain ⟨provider, -, rfl⟩ := List.mem_map.mp hown
      obtain ⟨other, hother, hin⟩ := List.mem_flatMap.mp (mem_firstOccurrences.mp hedge)
      obtain ⟨_, -, heq⟩ := List.mem_map.mp hin
      exact hids.1 (List.mem_map.mpr ⟨other, hother, congrArg Edge.consumer heq⟩)
    rw [edgesBy_cons, edgesBy_cons, ih hids.2, firstOccurrences_append,
      firstOccurrences_map fun _ _ heq => congrArg Edge.provider heq,
      List.filter_eq_self.mpr fun edge hedge => decide_eq_true (hnew edge hedge)]

/-! ## Counting -/

theorem ncard_eq_length {α : Type} {as : List α} (hnodup : as.Nodup) {p : α → Prop}
    (hmem : ∀ a, a ∈ as ↔ p a) : {a | p a}.ncard = as.length := by
  classical
  have hset : {a | p a} = as.toFinset := by
    ext a
    rw [Finset.mem_coe, List.mem_toFinset, hmem]
    exact Iff.rfl
  rw [hset, Set.ncard_coe_finset, List.toFinset_card_of_nodup hnodup]

/-- Sorted into rows by a key, all entries are counted. -/
theorem sum_length_filter {α β : Type} [DecidableEq β] {keys : List β} (hnodup : keys.Nodup)
    {key : α → β} {as : List α} (hkeys : ∀ a ∈ as, key a ∈ keys) :
    (keys.map fun b => (as.filter fun a => key a = b).length).sum = as.length := by
  have hrow (b : β) : (as.filter fun a => key a = b).length = (as.map key : Multiset β).count b := by
    rw [Multiset.coe_count, List.count_eq_countP, List.countP_map, List.countP_eq_length_filter]
    congr 2
  have hall : ∀ b ∈ (as.map key : Multiset β), b ∈ keys.toFinset := by
    intro b hb
    obtain ⟨a, ha, rfl⟩ := List.mem_map.mp (Multiset.mem_coe.mp hb)
    exact List.mem_toFinset.mpr (hkeys a ha)
  calc (keys.map fun b => (as.filter fun a => key a = b).length).sum
      = (keys.map fun b => (as.map key : Multiset β).count b).sum := by simp only [hrow]
    _ = ∑ b ∈ keys.toFinset, (as.map key : Multiset β).count b := (List.sum_toFinset _ hnodup).symm
    _ = (as.map key : Multiset β).card := Multiset.sum_count_eq_card hall
    _ = as.length := by rw [Multiset.coe_card, List.length_map]

/-! ## Graphs that were built -/

section

variable {registry : Registry} {index : CapabilityIndex} {phase : Phase} {graph : PhaseGraph}

theorem edges_of_build (h : (build registry index phase).result = .ok graph) :
    graph.edges = firstOccurrences (foundEdges index (registry.inPhase phase)) := by
  obtain ⟨-, rfl⟩ := build_eq_ok_iff_graphBy.mp h
  exact edgesBy_firstOccurrences _ (registry.nodup_map_id_inPhase phase)

theorem tables_of_build (h : (build registry index phase).result = .ok graph) :
    Tables.ofEdges graph.nodes (foundEdges index (registry.inPhase phase)) = graph.tables := by
  have hgraph := wellFormed_of_build h
  have hedges := edges_of_build h
  rw [Tables.ofEdges_eq hgraph.nodup_nodes]
  · unfold tables prerequisites dependents
    rw [hedges]
    rfl
  · intro edge hedge
    have hprecedes : graph.Precedes edge.provider edge.consumer := by
      show edge ∈ graph.edges
      rw [hedges]
      exact mem_firstOccurrences.mpr hedge
    exact ⟨hgraph.provider_mem hprecedes, hgraph.consumer_mem hprecedes⟩

/-- What a graph says about the components of a phase. Order is that in which components were first
seen. -/
structure Depicts (graph : PhaseGraph) (registry : Registry) (phase : Phase) : Prop where
  nodes_eq : graph.nodes = (registry.inPhase phase).map Component.id
  nodes_ordered : graph.nodes.Pairwise registry.SeenBefore
  mem_prerequisites_iff : ∀ provider consumer,
    provider ∈ graph.prerequisites consumer ↔ registry.IdLeadsIn phase provider consumer
  /-- What waits for a component is what has it as a prerequisite. -/
  mem_dependents_iff : ∀ provider consumer,
    consumer ∈ graph.dependents provider ↔ provider ∈ graph.prerequisites consumer
  dependents_ordered : ∀ provider, (graph.dependents provider).Pairwise registry.SeenBefore
  /-- Every prerequisite of a node counts once. -/
  valence_eq : ∀ id ∈ graph.nodes,
    graph.valence? id = some {provider | registry.IdLeadsIn phase provider id}.ncard
  /-- Every edge counts once, from either end. -/
  length_edges_eq : graph.edges.length =
    {pair : ComponentId × ComponentId | registry.IdLeadsIn phase pair.1 pair.2}.ncard
  sum_prerequisites_eq :
    (graph.nodes.map fun id => (graph.prerequisites id).length).sum = graph.edges.length
  sum_dependents_eq :
    (graph.nodes.map fun id => (graph.dependents id).length).sum = graph.edges.length
  entryNodes_ordered : graph.entryNodes.Pairwise registry.SeenBefore
  mem_entryNodes_iff : ∀ id, id ∈ graph.entryNodes ↔
    id ∈ graph.nodes ∧ ∀ provider, ¬registry.IdLeadsIn phase provider id

variable (hindex : CapabilityIndex.build registry = .ok index)

include hindex

theorem depicts_of_ok (h : (build registry index phase).result = .ok graph) :
    graph.Depicts registry phase := by
  have hgraph := wellFormed_of_build h
  have hnodes : graph.nodes.Pairwise registry.SeenBefore :=
    registry.pairwise_seenBefore_ids.sublist (nodes_sublist_ids h)
  have hprerequisites (provider consumer : ComponentId) :
      provider ∈ graph.prerequisites consumer ↔ registry.IdLeadsIn phase provider consumer := by
    have hgraphOf : graph = registry.graphOf phase := ((build_eq_ok_iff hindex).mp h).2
    rw [mem_prerequisites, hgraphOf, Registry.precedes_graphOf_eq]
  have hedges : graph.edges.Nodup := by
    rw [edges_of_build h]
    exact nodup_firstOccurrences _
  refine { nodes_eq := nodes_of_build h
           nodes_ordered := hnodes
           mem_prerequisites_iff := hprerequisites
           mem_dependents_iff := ?converse
           dependents_ordered := fun provider => hnodes.sublist (hgraph.dependents_sublist provider)
           valence_eq := ?valence
           length_edges_eq := ?edges
           sum_prerequisites_eq := ?prerequisites
           sum_dependents_eq := ?dependents
           entryNodes_ordered := hnodes.sublist List.filter_sublist
           mem_entryNodes_iff := ?entries }
  case converse =>
    intro provider consumer
    rw [mem_dependents, mem_prerequisites]
  case valence =>
    intro id hid
    have hcount := ncard_eq_length (hgraph.nodup_prerequisites id) fun provider =>
      hprerequisites provider id
    rw [valence?, if_pos hid, hcount]
  case edges =>
    have hpairs : (graph.edges.map fun edge => (edge.provider, edge.consumer)).Nodup := by
      refine hedges.map fun one two heq => ?_
      exact Edge.eq_of_ends (congrArg Prod.snd heq) (congrArg Prod.fst heq)
    have hleads (pair : ComponentId × ComponentId) :
        pair ∈ (graph.edges.map fun edge => (edge.provider, edge.consumer)) ↔
          registry.IdLeadsIn phase pair.1 pair.2 := by
      rw [← hprerequisites, mem_prerequisites, List.mem_map]
      constructor
      · rintro ⟨edge, hedge, rfl⟩
        exact hedge
      · intro hedge
        exact ⟨⟨pair.1, pair.2⟩, hedge, rfl⟩
    rw [ncard_eq_length hpairs hleads, List.length_map]
  case prerequisites =>
    simp only [prerequisites, List.length_map]
    exact sum_length_filter hgraph.nodup_nodes fun edge hedge => hgraph.consumer_mem hedge
  case dependents =>
    simp only [dependents, List.length_map]
    exact sum_length_filter hgraph.nodup_nodes fun edge hedge => hgraph.provider_mem hedge
  case entries =>
    intro id
    rw [entryNodes, List.mem_filter, List.isEmpty_iff, List.eq_nil_iff_forall_not_mem]
    simp only [hprerequisites]

/-- Building fails exactly if a member of the phase names something that is no member. Otherwise the
graph depicts the phase, and the two tables that are filled on the way are those of the graph. -/
theorem depicts_of_build (phase : Phase) :
    ((∃ cause, (build registry index phase).result = .error cause) ↔
        ∃ c ∈ registry.inPhase phase, ∃ id ∈ c.dependsOn, registry.Misnames c id) ∧
      ∀ graph, (build registry index phase).result = .ok graph →
        graph.Depicts registry phase ∧
          Tables.ofEdges graph.nodes (foundEdges index (registry.inPhase phase)) = graph.tables := by
  refine ⟨?fails, fun graph h => ⟨depicts_of_ok hindex h, tables_of_build h⟩⟩
  case fails =>
    have hsound : (∀ c ∈ registry.inPhase phase, registry.dependenciesFault? c = none) ↔
        ¬∃ c ∈ registry.inPhase phase, ∃ id ∈ c.dependsOn, registry.Misnames c id := by
      simp only [Registry.dependenciesFault?_eq_none_iff_not_misnames, not_exists, not_and]
    rw [← not_iff_not, ← hsound]
    constructor
    · intro hok
      cases hresult : (build registry index phase).result with
      | error cause => exact absurd ⟨cause, hresult⟩ hok
      | ok graph => exact ((build_eq_ok_iff hindex).mp hresult).1
    · rintro hnone ⟨cause, herror⟩
      have hresult : (build registry index phase).result = .ok _ :=
        (build_eq_ok_iff hindex).mpr ⟨hnone, rfl⟩
      rw [herror] at hresult
      cases hresult

end

end PhaseGraph

/-- A screen that names a timer and the bus, and that needs interrupts. -/
def Component.screen : Component :=
  { plain "screen" .coreDevices with
    dependsOn := .ofList [⟨"timer"⟩, ⟨"bus"⟩], needs := .ofList [⟨"irq"⟩] }

/-- A bus that provides interrupts, a timer and the screen. -/
def Registry.screened : Registry where
  entries := [⟨{ Component.plain "bus" .coreDevices with provides := .ofList [⟨"irq"⟩] },
      "devices.toml"⟩,
    ⟨.plain "timer" .coreDevices, "devices.toml"⟩,
    ⟨.screen, "devices.toml"⟩]
  nodup_ids := by decide

namespace PhaseGraph

@[inherit_doc Registry.screened]
def screened : PhaseGraph where
  phase := .coreDevices
  nodes := [⟨"bus"⟩, ⟨"timer"⟩, ⟨"screen"⟩]
  edges := [⟨⟨"timer"⟩, ⟨"screen"⟩⟩, ⟨⟨"bus"⟩, ⟨"screen"⟩⟩]

/-- The bus is found twice and counts once. -/
theorem depicts_of_build_screened :
    CapabilityIndex.build .screened = .ok ⟨[(⟨"irq"⟩, [⟨"bus"⟩])]⟩ ∧
      {provider | Registry.screened.IdLeadsIn .coreDevices provider ⟨"screen"⟩}.ncard = 2 ∧
      Tables.ofEdges screened.nodes
          (foundEdges ⟨[(⟨"irq"⟩, [⟨"bus"⟩])]⟩ (Registry.screened.inPhase .coreDevices)) =
        { prerequisites := [[], [], [1, 0]], dependents := [[2], [2], []] } := by
  have hindex : CapabilityIndex.build .screened = .ok ⟨[(⟨"irq"⟩, [⟨"bus"⟩])]⟩ := by decide
  have hbuild : (build .screened ⟨[(⟨"irq"⟩, [⟨"bus"⟩])]⟩ .coreDevices).result = .ok screened := by
    decide
  obtain ⟨hdepicts, htables⟩ := (depicts_of_build hindex .coreDevices).2 screened hbuild
  have hvalence := hdepicts.valence_eq ⟨"screen"⟩ (by decide)
  have htwo : screened.valence? ⟨"screen"⟩ = some 2 := by decide
  exact ⟨hindex, Option.some.inj (hvalence.symm.trans htwo), htables.trans (by decide)⟩

/-! ## The order of prerequisites -/

/-- The prerequisites of a component are those that it names, in the order in which it names them,
then, capability after capability, the providers of what it needs, in first-seen order. -/
theorem prerequisites_of_build {registry : Registry} {index : CapabilityIndex}
    (hindex : CapabilityIndex.build registry = .ok index) {phase : Phase} {graph : PhaseGraph}
    (h : (build registry index phase).result = .ok graph) {component : Component}
    (hmem : component ∈ registry.inPhase phase) :
    graph.prerequisites component.id = component.dependsOn.toList ++
        ((firstOccurrences
          (component.needs.toList.flatMap (providersAmong (registry.inPhase phase)))).filter
            fun provider => provider ∉ component.dependsOn) ∧
      ∀ x, (providersAmong (registry.inPhase phase) x).Pairwise registry.SeenBefore := by
  obtain ⟨hsound, rfl⟩ := (build_eq_ok_iff hindex).mp h
  obtain ⟨hcomponent, rfl⟩ := Registry.mem_inPhase.mp hmem
  have hnamed : ∀ id ∈ component.dependsOn.toList,
      id ∈ (registry.inPhase component.phase).map Component.id := by
    intro id hid
    obtain ⟨p, hp, rfl, hphase⟩ :=
      Registry.dependenciesFault?_eq_none_iff.mp (hsound component hmem) id hid
    exact List.mem_map_of_mem (Registry.mem_inPhase.mpr ⟨hp, hphase⟩)
  have hlisted : (ofMembers component.phase (registry.inPhase component.phase)).prerequisites
      component.id = awaited (registry.inPhase component.phase) component :=
    prerequisites_graphBy _ (registry.nodup_map_id_inPhase component.phase) hmem
  refine ⟨?listed, fun x => ?ordered⟩
  case listed =>
    rw [hlisted, awaited, List.filter_eq_self.mpr fun id hid => decide_eq_true (hnamed id hid),
      firstOccurrences_append, firstOccurrences_of_nodup component.dependsOn.nodup]
    rfl
  case ordered =>
    have hids : (providersAmong (registry.inPhase component.phase) x).Sublist registry.ids := by
      rw [Registry.ids_eq_map_components]
      exact (List.filter_sublist.trans List.filter_sublist).map _
    exact registry.pairwise_seenBefore_ids.sublist hids

theorem prerequisites_of_build_screened :
    screened.prerequisites ⟨"screen"⟩ = [⟨"timer"⟩, ⟨"bus"⟩] ∧
      (providersAmong (Registry.screened.inPhase .coreDevices) ⟨"irq"⟩).Pairwise
        Registry.screened.SeenBefore := by
  have hindex : CapabilityIndex.build .screened = .ok ⟨[(⟨"irq"⟩, [⟨"bus"⟩])]⟩ := by decide
  have hbuild : (build .screened ⟨[(⟨"irq"⟩, [⟨"bus"⟩])]⟩ .coreDevices).result = .ok screened := by
    decide
  have hmem : Component.screen ∈ Registry.screened.inPhase .coreDevices := by decide
  obtain ⟨hlisted, hordered⟩ := prerequisites_of_build hindex hbuild hmem
  exact ⟨hlisted.trans (by decide), hordered ⟨"irq"⟩⟩

/-- Prerequisites need not stand in first-seen order. -/
theorem not_pairwise_seenBefore_prerequisites :
    ¬∀ (registry : Registry) (index : CapabilityIndex) (phase : Phase) (graph : PhaseGraph),
      CapabilityIndex.build registry = .ok index →
      (build registry index phase).result = .ok graph →
      ∀ component ∈ registry.inPhase phase,
        (graph.prerequisites component.id).Pairwise registry.SeenBefore := by
  intro h
  have hordered : (screened.prerequisites ⟨"screen"⟩).Pairwise Registry.screened.SeenBefore :=
    h .screened ⟨[(⟨"irq"⟩, [⟨"bus"⟩])]⟩ .coreDevices screened (by decide) (by decide) .screen
      (by decide)
  have hlisted : screened.prerequisites ⟨"screen"⟩ = [⟨"timer"⟩, ⟨"bus"⟩] := by decide
  rw [hlisted] at hordered
  obtain ⟨i, j, hi, hj, hlt⟩ := List.rel_of_pairwise_cons hordered List.mem_cons_self
  have htimer : Registry.screened.position? ⟨"timer"⟩ = some 1 := by decide
  have hbus : Registry.screened.position? ⟨"bus"⟩ = some 0 := by decide
  cases hi.symm.trans htimer
  cases hj.symm.trans hbus
  exact Nat.not_lt_zero 1 hlt

end PhaseGraph

end BootTable
