import BootTable.PhaseGraph
import BootTable.Proofs.Registry.Rules
import Mathlib.Data.List.Nodup
import Mathlib.Data.List.Perm.Basic

/-!
# BootTable — the graph of a phase, from its members alone

Members of a phase and what each of them awaits make a graph, `graphBy`; whatever they await, what
it lists is the same. A graph is built from the members and an index of providers. With the index of
the whole registry only providers of the phase become nodes, so the graph is a function of the
members: `ofMembers` says which one, and its edges are the pairs of which one member waits for the
other.

* **`wellFormed_graphBy`**: nothing is repeated, edges join nodes, and what waits for a component
  is listed in first-seen order.
* **`build_eq_ok_iff_graphBy`**: building succeeds exactly if the named components of the members
  are sound, whatever the index is; **`precedes_of_build_iff`** says what the edges are then.
* **`build_eq_ok_iff`**, **`precedes_ofMembers_iff`**: the same with the index of the registry.
-/

namespace BootTable

/-- A component waits for one that it names or that provides something it needs. -/
def Component.WaitsFor (consumer provider : Component) : Prop :=
  provider.id ∈ consumer.dependsOn ∨ ∃ x ∈ consumer.needs, x ∈ provider.provides

/-- Of two members of a phase, the first one must complete before the second one, which names it or
needs a capability that, by the index, it provides. -/
def Registry.IsPrerequisiteIn (registry : Registry) (index : CapabilityIndex) (phase : Phase)
    (provider consumer : ComponentId) : Prop :=
  ∃ p ∈ registry.inPhase phase, ∃ c ∈ registry.inPhase phase, p.id = provider ∧ c.id = consumer ∧
    (p.id ∈ c.dependsOn ∨ ∃ x ∈ c.needs, p.id ∈ index.providers x)

namespace PhaseGraph

/-- An edge leads from the first component to the second one. -/
def Precedes (graph : PhaseGraph) (provider consumer : ComponentId) : Prop :=
  ⟨provider, consumer⟩ ∈ graph.edges

instance (graph : PhaseGraph) (provider consumer : ComponentId) :
    Decidable (graph.Precedes provider consumer) :=
  inferInstanceAs (Decidable (_ ∈ graph.edges))

theorem mem_prerequisites {graph : PhaseGraph} {provider consumer : ComponentId} :
    provider ∈ graph.prerequisites consumer ↔ graph.Precedes provider consumer := by
  unfold prerequisites Precedes
  simp only [List.mem_map, List.mem_filter, decide_eq_true_eq]
  constructor
  · rintro ⟨edge, ⟨hedge, rfl⟩, rfl⟩
    exact hedge
  · intro h
    exact ⟨⟨provider, consumer⟩, ⟨h, rfl⟩, rfl⟩

theorem mem_dependents {graph : PhaseGraph} {provider consumer : ComponentId} :
    consumer ∈ graph.dependents provider ↔ graph.Precedes provider consumer := by
  unfold dependents Precedes
  simp only [List.mem_map, List.mem_filter, decide_eq_true_eq]
  constructor
  · rintro ⟨edge, ⟨hedge, rfl⟩, rfl⟩
    exact hedge
  · intro h
    exact ⟨⟨provider, consumer⟩, ⟨h, rfl⟩, rfl⟩

/-- What the ordering of a graph relies on. -/
structure WellFormed (graph : PhaseGraph) : Prop where
  /-- No node is repeated. -/
  nodup_nodes : graph.nodes.Nodup
  /-- No prerequisite is counted twice. -/
  nodup_prerequisites : ∀ id, (graph.prerequisites id).Nodup
  /-- What waits for a component is listed once, in first-seen order. -/
  dependents_sublist : ∀ id, (graph.dependents id).Sublist graph.nodes
  /-- Edges come from nodes. -/
  provider_mem : ∀ {provider consumer}, graph.Precedes provider consumer → provider ∈ graph.nodes

namespace WellFormed

variable {graph : PhaseGraph} (hgraph : graph.WellFormed)

include hgraph

theorem consumer_mem {provider consumer : ComponentId} (h : graph.Precedes provider consumer) :
    consumer ∈ graph.nodes :=
  (hgraph.dependents_sublist provider).subset (mem_dependents.mpr h)

theorem nodup_dependents (id : ComponentId) : (graph.dependents id).Nodup :=
  hgraph.nodup_nodes.sublist (hgraph.dependents_sublist id)

/-- Nodes that are listed in first-seen order are known by their members. -/
theorem eq_of_mem_iff {as bs : List ComponentId} (has : as.Sublist graph.nodes)
    (hbs : bs.Sublist graph.nodes) (h : ∀ id, id ∈ as ↔ id ∈ bs) : as = bs := by
  have hnodes := hgraph.nodup_nodes
  rw [← hnodes.perm_iff_eq_of_sublist has hbs,
    List.perm_ext_iff_of_nodup (hnodes.sublist has) (hnodes.sublist hbs)]
  exact h

end WellFormed

/-! ## Members that await something -/

section

variable (awaits : Component → List ComponentId)

/-- An edge for everything that each member awaits. -/
def edgesBy (members : List Component) : List Edge :=
  members.flatMap fun component =>
    (awaits component).map fun provider => ⟨provider, component.id⟩

/-- The graph of members of a phase, with an edge for everything that each of them awaits. -/
def graphBy (phase : Phase) (members : List Component) : PhaseGraph :=
  { phase
    nodes := members.map Component.id
    edges := edgesBy awaits members }

theorem edgesBy_cons (component : Component) (others : List Component) :
    edgesBy awaits (component :: others) =
      ((awaits component).map fun provider => ⟨provider, component.id⟩) ++ edgesBy awaits others :=
  rfl

theorem precedes_graphBy_iff {phase : Phase} {members : List Component}
    {provider consumer : ComponentId} :
    (graphBy awaits phase members).Precedes provider consumer ↔
      ∃ component ∈ members, component.id = consumer ∧ provider ∈ awaits component := by
  unfold Precedes graphBy edgesBy
  rw [List.mem_flatMap]
  constructor
  · rintro ⟨component, hmem, hedge⟩
    obtain ⟨id, hawaited, hpair⟩ := List.mem_map.mp hedge
    cases hpair
    exact ⟨component, hmem, rfl, hawaited⟩
  · rintro ⟨component, hmem, rfl, hawaited⟩
    exact ⟨component, hmem, List.mem_map.mpr ⟨provider, hawaited, rfl⟩⟩

theorem dependents_graphBy (hnodup : ∀ component, (awaits component).Nodup) (phase : Phase)
    (members : List Component) (id : ComponentId) :
    (graphBy awaits phase members).dependents id =
      (members.filter fun component => id ∈ awaits component).map Component.id := by
  show ((edgesBy awaits members).filter fun edge => edge.provider = id).map Edge.consumer = _
  induction members with
  | nil => rfl
  | cons component others ih =>
    have hcount : (awaits component).count id = if id ∈ awaits component then 1 else 0 :=
      (hnodup component).count
    -- Of the edges to this component, the one from `id` counts once, if it is there.
    rw [edgesBy_cons, List.filter_append, List.map_append, ih, List.filter_map, List.map_map,
      Function.comp_def, Function.comp_def, List.filter_eq, List.map_replicate, hcount,
      List.filter_cons]
    by_cases h : id ∈ awaits component
    · simp [h]
    · simp [h]

theorem prerequisites_graphBy {phase : Phase} {members : List Component}
    (hids : (members.map Component.id).Nodup) {component : Component} (h : component ∈ members) :
    (graphBy awaits phase members).prerequisites component.id = awaits component := by
  show ((edgesBy awaits members).filter fun edge => edge.consumer = component.id).map
    Edge.provider = _
  -- Edges to other members do not lead to this one: no other member has its id.
  have habsent {others : List Component} (hid : component.id ∉ others.map Component.id) :
      ((edgesBy awaits others).filter fun edge => edge.consumer = component.id) = [] := by
    rw [List.filter_eq_nil_iff]
    intro edge hedge heq
    obtain ⟨other, hother, hmem⟩ := List.mem_flatMap.mp hedge
    obtain ⟨provider, -, rfl⟩ := List.mem_map.mp hmem
    exact hid (List.mem_map.mpr ⟨other, hother, of_decide_eq_true heq⟩)
  induction members with
  | nil => exact absurd h List.not_mem_nil
  | cons other others ih =>
    rw [List.map_cons, List.nodup_cons] at hids
    rw [edgesBy_cons, List.filter_append, List.map_append, List.filter_map, List.map_map,
      Function.comp_def, Function.comp_def]
    rcases List.mem_cons.mp h with rfl | hmem
    · rw [habsent hids.1]
      simp
    · have hne : other.id ≠ component.id := fun heq =>
        hids.1 (heq ▸ List.mem_map_of_mem hmem)
      rw [ih hids.2 hmem]
      simp [hne]

/-- Where members await one another, each once, their graph is well formed. -/
theorem wellFormed_graphBy (hnodup : ∀ component, (awaits component).Nodup) (phase : Phase)
    {members : List Component} (hids : (members.map Component.id).Nodup)
    (hmembers : ∀ component ∈ members, awaits component ⊆ members.map Component.id) :
    (graphBy awaits phase members).WellFormed where
  nodup_nodes := hids
  nodup_prerequisites id := by
    by_cases h : id ∈ members.map Component.id
    · obtain ⟨component, hmem, rfl⟩ := List.mem_map.mp h
      rw [prerequisites_graphBy awaits hids hmem]
      exact hnodup component
    · have hnone : (graphBy awaits phase members).prerequisites id = [] := by
        rw [List.eq_nil_iff_forall_not_mem]
        intro provider hprovider
        obtain ⟨component, hmem, rfl, -⟩ :=
          (precedes_graphBy_iff awaits).mp (mem_prerequisites.mp hprovider)
        exact h (List.mem_map_of_mem hmem)
      rw [hnone]
      exact List.nodup_nil
  dependents_sublist id := by
    rw [dependents_graphBy awaits hnodup]
    exact List.filter_sublist.map _
  provider_mem h := by
    obtain ⟨component, hmem, -, hawaited⟩ := (precedes_graphBy_iff awaits).mp h
    exact hmembers component hmem hawaited

end

/-! ## The graph of members -/

/-- The members that a component waits for: those it names, then those that provide what it
needs. -/
def awaited (members : List Component) (component : Component) : List ComponentId :=
  firstOccurrences
    ((component.dependsOn.toList.filter fun id => id ∈ members.map Component.id) ++
      component.needs.toList.flatMap (providersAmong members))

/-- The graph that the members of a phase make. -/
def ofMembers (phase : Phase) (members : List Component) : PhaseGraph :=
  { phase
    nodes := members.map Component.id
    edges := members.flatMap fun component =>
      (awaited members component).map fun provider => ⟨provider, component.id⟩ }

theorem ofMembers_eq_graphBy (phase : Phase) (members : List Component) :
    ofMembers phase members = graphBy (awaited members) phase members :=
  rfl

theorem mem_awaited {members : List Component} {component : Component} {id : ComponentId} :
    id ∈ awaited members component ↔
      ∃ provider ∈ members, provider.id = id ∧ component.WaitsFor provider := by
  unfold awaited
  rw [mem_firstOccurrences, List.mem_append, List.mem_filter, List.mem_flatMap]
  simp only [mem_providersAmong, decide_eq_true_eq, List.mem_map, DistinctList.mem_toList]
  constructor
  · rintro (⟨hnamed, provider, hprovider, rfl⟩ | ⟨x, hx, provider, hprovider, hprovided, rfl⟩)
    · exact ⟨provider, hprovider, rfl, .inl hnamed⟩
    · exact ⟨provider, hprovider, rfl, .inr ⟨x, hx, hprovided⟩⟩
  · rintro ⟨provider, hprovider, rfl, hnamed | ⟨x, hx, hprovided⟩⟩
    · exact .inl ⟨hnamed, provider, hprovider, rfl⟩
    · exact .inr ⟨x, hx, provider, hprovider, hprovided, rfl⟩

theorem nodup_awaited (members : List Component) (component : Component) :
    (awaited members component).Nodup :=
  nodup_firstOccurrences _

theorem precedes_ofMembers_iff {phase : Phase} {members : List Component}
    {provider consumer : ComponentId} :
    (ofMembers phase members).Precedes provider consumer ↔
      ∃ p ∈ members, ∃ c ∈ members, p.id = provider ∧ c.id = consumer ∧ c.WaitsFor p := by
  rw [ofMembers_eq_graphBy, precedes_graphBy_iff]
  simp only [mem_awaited]
  constructor
  · rintro ⟨c, hc, hconsumer, p, hp, hprovider, hwaits⟩
    exact ⟨p, hp, c, hc, hprovider, hconsumer, hwaits⟩
  · rintro ⟨p, hp, c, hc, hprovider, hconsumer, hwaits⟩
    exact ⟨c, hc, hconsumer, p, hp, hprovider, hwaits⟩

theorem wellFormed_ofMembers (phase : Phase) {members : List Component}
    (hids : (members.map Component.id).Nodup) : (ofMembers phase members).WellFormed := by
  refine wellFormed_graphBy _ (nodup_awaited members) phase hids fun component _ id hawaited => ?_
  obtain ⟨provider, hmem, rfl, -⟩ := mem_awaited.mp hawaited
  exact List.mem_map_of_mem hmem

/-! ## Building -/

theorem examine_eq_ok_iff {registry : Registry} {index : CapabilityIndex}
    {members : List Component} :
    (examine registry index members).result = .ok () ↔
      ∀ component ∈ members, registry.dependenciesFault? component = none := by
  induction members with
  | nil => simp [examine]
  | cons component others ih =>
    unfold examine
    rw [Logged.result_bind_eq_ok_iff, List.forall_mem_cons]
    constructor
    · rintro ⟨⟨⟩, hown, hrest⟩
      obtain ⟨⟨⟩, -, hothers⟩ := Logged.result_bind_eq_ok_iff.mp hrest
      exact ⟨Logged.result_reject_eq_ok_iff.mp hown, ih.mp hothers⟩
    · rintro ⟨hown, hothers⟩
      exact ⟨(), Logged.result_reject_eq_ok_iff.mpr hown,
        Logged.result_bind_eq_ok_iff.mpr ⟨(), rfl, ih.mpr hothers⟩⟩

/-- With any index, building answers the graph of the members and of the providers among them. -/
theorem build_eq_ok_iff_graphBy {registry : Registry} {index : CapabilityIndex} {phase : Phase}
    {graph : PhaseGraph} :
    (build registry index phase).result = .ok graph ↔
      (∀ component ∈ registry.inPhase phase, registry.dependenciesFault? component = none) ∧
        graph = graphBy (providersFor index ((registry.inPhase phase).map Component.id)) phase
          (registry.inPhase phase) := by
  unfold build
  simp only [Logged.result_bind_eq_ok_iff]
  constructor
  · rintro ⟨⟨⟩, hexamined, ⟨⟩, -, hgraph⟩
    cases hgraph
    exact ⟨examine_eq_ok_iff.mp hexamined, rfl⟩
  · rintro ⟨hsound, rfl⟩
    exact ⟨(), examine_eq_ok_iff.mpr hsound, (), rfl, rfl⟩

theorem mem_providersFor {index : CapabilityIndex} {nodes : List ComponentId}
    {component : Component} {id : ComponentId} :
    id ∈ providersFor index nodes component ↔ id ∈ nodes ∧
      (id ∈ component.dependsOn ∨ ∃ x ∈ component.needs, id ∈ index.providers x) := by
  unfold providersFor
  rw [mem_firstOccurrences, List.mem_filter, List.mem_append, List.mem_flatMap, and_comm,
    decide_eq_true_eq]
  simp only [DistinctList.mem_toList]

section

variable {registry : Registry} {index : CapabilityIndex} {phase : Phase} {graph : PhaseGraph}
  (h : (build registry index phase).result = .ok graph)

include h

theorem phase_of_build : graph.phase = phase := by
  obtain ⟨-, rfl⟩ := build_eq_ok_iff_graphBy.mp h
  rfl

theorem nodes_of_build : graph.nodes = (registry.inPhase phase).map Component.id := by
  obtain ⟨-, rfl⟩ := build_eq_ok_iff_graphBy.mp h
  rfl

theorem nodes_sublist_ids : graph.nodes.Sublist registry.ids := by
  rw [nodes_of_build h, Registry.ids_eq_map_components]
  exact List.filter_sublist.map _

theorem wellFormed_of_build : graph.WellFormed := by
  obtain ⟨-, rfl⟩ := build_eq_ok_iff_graphBy.mp h
  exact wellFormed_graphBy _ (fun _ => nodup_firstOccurrences _) phase
    (registry.nodup_map_id_inPhase phase) fun _ _ _ hawaited => (mem_providersFor.mp hawaited).1

theorem precedes_of_build_iff {provider consumer : ComponentId} :
    graph.Precedes provider consumer ↔
      registry.IsPrerequisiteIn index phase provider consumer := by
  obtain ⟨-, rfl⟩ := build_eq_ok_iff_graphBy.mp h
  rw [precedes_graphBy_iff]
  simp only [mem_providersFor]
  constructor
  · rintro ⟨c, hc, hconsumer, hprovider, hawaited⟩
    obtain ⟨p, hp, rfl⟩ := List.mem_map.mp hprovider
    exact ⟨p, hp, c, hc, rfl, hconsumer, hawaited⟩
  · rintro ⟨p, hp, c, hc, rfl, hconsumer, hawaited⟩
    exact ⟨c, hc, hconsumer, List.mem_map_of_mem hp, hawaited⟩

end

/-- Of the providers of a capability, the nodes of a phase are those of the phase. -/
theorem filter_providersAmong (registry : Registry) (phase : Phase) (x : Capability) :
    ((providersAmong registry.components x).filter fun provider =>
      provider ∈ (registry.inPhase phase).map Component.id) =
      providersAmong (registry.inPhase phase) x := by
  unfold providersAmong
  rw [List.filter_map, List.filter_filter]
  unfold Registry.inPhase
  rw [List.filter_filter]
  congr 1
  apply List.filter_congr
  intro component hmem
  have hnode : component.id ∈ (registry.inPhase phase).map Component.id ↔
      component.phase = phase := Registry.mem_ids_inPhase_iff hmem
  unfold Registry.inPhase at hnode
  by_cases hphase : component.phase = phase
  · simp [hnode.mpr hphase, hphase]
  · have hnot := mt hnode.mp hphase
    simp [hnot, hphase]

theorem providersFor_eq_awaited {registry : Registry} {index : CapabilityIndex}
    (hindex : CapabilityIndex.build registry = .ok index) (phase : Phase)
    (component : Component) :
    providersFor index ((registry.inPhase phase).map Component.id) component =
      awaited (registry.inPhase phase) component := by
  unfold providersFor awaited
  rw [List.filter_append, List.filter_flatMap, funext (CapabilityIndex.providers_of_build hindex),
    funext (filter_providersAmong registry phase)]

theorem build_eq_ok_iff {registry : Registry} {index : CapabilityIndex}
    (hindex : CapabilityIndex.build registry = .ok index) {phase : Phase} {graph : PhaseGraph} :
    (build registry index phase).result = .ok graph ↔
      (∀ component ∈ registry.inPhase phase, registry.dependenciesFault? component = none) ∧
        graph = ofMembers phase (registry.inPhase phase) := by
  rw [build_eq_ok_iff_graphBy, funext (providersFor_eq_awaited hindex phase),
    ofMembers_eq_graphBy]

end PhaseGraph

end BootTable
