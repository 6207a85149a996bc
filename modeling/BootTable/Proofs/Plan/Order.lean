import BootTable.Proofs.Plan.Schedulable

/-!
# BootTable — the order of a plan

A plan lists every component once, phase after phase, and each after everything that it waits for.
Inside a phase this is the order of its graph; across phases it is the order of the phases
themselves, since nothing is provided in a phase after that of its consumers.

* **`nodup_order_planOf`**, **`mem_order_planOf_iff`**: what is listed.
* **`pair_sublist_order_planOf`**: components that wait stand after what they wait for.
* **`order_of_schedule`**: the same about every plan that scheduling answers, by positions.
-/

namespace BootTable

/-- Two components of a plan of which the first one has the smaller position. -/
def Plan.Before (plan : Plan) (first second : ComponentId) : Prop :=
  ∃ i j, plan.position? first = some i ∧ plan.position? second = some j ∧ i < j

theorem Plan.position?_eq_some_idxOf {plan : Plan} {id : ComponentId} (h : id ∈ plan.order) :
    plan.position? id = some (plan.order.idxOf id) := by
  unfold Plan.position?
  rw [List.findIdx?_eq_some_iff_findIdx_eq]
  have hindex : plan.order.findIdx (fun other => other = id) = plan.order.idxOf id := rfl
  rw [hindex]
  exact ⟨List.idxOf_lt_length_of_mem h, rfl⟩

/-- Where no component is repeated, what is listed first has the smaller position. -/
theorem Plan.before_of_pair_sublist {plan : Plan} (hnodup : plan.order.Nodup)
    {first second : ComponentId} (h : [first, second].Sublist plan.order) :
    plan.Before first second := by
  have hfirst : first ∈ plan.order := h.subset List.mem_cons_self
  obtain ⟨hlt, hsecond⟩ := PhaseGraph.idxOf_lt_of_pair_sublist hnodup h
  exact ⟨_, _, position?_eq_some_idxOf hfirst, position?_eq_some_idxOf hsecond, hlt⟩

theorem Phase.pair_sublist_all {p q : Phase} (h : p < q) : [p, q].Sublist Phase.all := by
  revert h
  cases p <;> cases q <;> decide

namespace Registry

variable {registry : Registry}

theorem order_planOf (registry : Registry) :
    registry.planOf.order =
      Phase.all.flatMap fun phase => (registry.graphOf phase).finalSorting.placed := by
  unfold planOf Plan.order
  rw [List.flatMap_map]

theorem componentsOf_planOf (registry : Registry) (phase : Phase) :
    registry.planOf.componentsOf phase = (registry.graphOf phase).finalSorting.placed := by
  cases phase <;> rfl

/-! ## What is listed -/

theorem sort_graphOf (h : registry.Schedulable) (phase : Phase) :
    (registry.graphOf phase).sort = .ok (registry.graphOf phase).finalSorting.placed :=
  (PhaseGraph.sort_eq_ok_iff (registry.wellFormed_graphOf phase)).mpr
    ⟨acyclic_graphOf_iff.mpr (h.acyclic phase), rfl⟩

theorem mem_placed_graphOf_iff (h : registry.Schedulable) {phase : Phase} {id : ComponentId} :
    id ∈ (registry.graphOf phase).finalSorting.placed ↔
      ∃ component ∈ registry.inPhase phase, component.id = id := by
  have hperm := PhaseGraph.perm_of_sort (registry.wellFormed_graphOf phase) (sort_graphOf h phase)
  rw [hperm.mem_iff]
  exact List.mem_map

theorem nodup_placed_graphOf (registry : Registry) (phase : Phase) :
    (registry.graphOf phase).finalSorting.placed.Nodup :=
  (PhaseGraph.consistent_finalSorting (registry.wellFormed_graphOf phase)).nodup_placed

theorem mem_order_planOf_iff (h : registry.Schedulable) {id : ComponentId} :
    id ∈ registry.planOf.order ↔ id ∈ registry.ids := by
  rw [order_planOf, List.mem_flatMap, ids_eq_map_components, List.mem_map]
  constructor
  · rintro ⟨phase, -, hplaced⟩
    obtain ⟨component, hmem, hid⟩ := (mem_placed_graphOf_iff h).mp hplaced
    exact ⟨component, (mem_inPhase.mp hmem).1, hid⟩
  · rintro ⟨component, hmem, hid⟩
    exact ⟨component.phase, Phase.mem_all _,
      (mem_placed_graphOf_iff h).mpr ⟨component, mem_components_iff.mp hmem, hid⟩⟩

theorem mem_placed_graphOf_iff_phase (h : registry.Schedulable) {phase : Phase}
    {component : Component} (hmem : component ∈ registry.components) :
    component.id ∈ (registry.graphOf phase).finalSorting.placed ↔ component.phase = phase := by
  rw [mem_placed_graphOf_iff h, ← mem_ids_inPhase_iff hmem, List.mem_map]

theorem nodup_order_planOf (h : registry.Schedulable) : registry.planOf.order.Nodup := by
  rw [order_planOf, List.nodup_flatMap]
  refine ⟨fun phase _ => registry.nodup_placed_graphOf phase, ?_⟩
  -- A component of two phases would be one whose phase is both.
  have hphases : Phase.all.Nodup := by decide
  refine hphases.imp fun {p q} hne id hp hq => ?_
  obtain ⟨component, hmem, rfl⟩ := (mem_placed_graphOf_iff h).mp hp
  obtain ⟨hcomponent, hphase⟩ := mem_inPhase.mp hmem
  exact hne (hphase.symm.trans ((mem_placed_graphOf_iff_phase h hcomponent).mp hq))

/-! ## What stands before what -/

/-- Inside a phase, the graph orders what waits. -/
theorem pair_sublist_of_same_phase (h : registry.Schedulable) {provider consumer : Component}
    (hprovider : provider ∈ registry.components) (hconsumer : consumer ∈ registry.components)
    (hphase : provider.phase = consumer.phase) (hwaits : consumer.WaitsFor provider) :
    [provider.id, consumer.id].Sublist registry.planOf.order := by
  have hedge : (registry.graphOf consumer.phase).Precedes provider.id consumer.id :=
    precedes_graphOf_iff.mpr ⟨provider, consumer,
      ⟨mem_inPhase.mpr ⟨hprovider, hphase⟩, mem_inPhase.mpr ⟨hconsumer, rfl⟩, hwaits⟩, rfl, rfl⟩
  have hordered := PhaseGraph.pair_sublist_of_sort (registry.wellFormed_graphOf consumer.phase)
    (sort_graphOf h consumer.phase) hedge
  have hpart := (List.singleton_sublist.mpr (Phase.mem_all consumer.phase)).flatMap
    fun phase => (registry.graphOf phase).finalSorting.placed
  rw [List.flatMap_singleton] at hpart
  rw [order_planOf]
  exact hordered.trans hpart

/-- Across phases, the order of the phases decides. -/
theorem pair_sublist_of_earlier_phase (h : registry.Schedulable) {first second : Component}
    (hfirst : first ∈ registry.components) (hsecond : second ∈ registry.components)
    (hphase : first.phase < second.phase) :
    [first.id, second.id].Sublist registry.planOf.order := by
  have hparts := (Phase.pair_sublist_all hphase).flatMap
    fun phase => (registry.graphOf phase).finalSorting.placed
  rw [List.flatMap_cons, List.flatMap_singleton] at hparts
  have hfirst := List.singleton_sublist.mpr ((mem_placed_graphOf_iff_phase h hfirst).mpr rfl)
  have hsecond := List.singleton_sublist.mpr ((mem_placed_graphOf_iff_phase h hsecond).mpr rfl)
  rw [order_planOf]
  exact (hfirst.append hsecond).trans hparts

theorem pair_sublist_order_planOf (h : registry.Schedulable) {provider consumer : Component}
    (hprovider : provider ∈ registry.components) (hconsumer : consumer ∈ registry.components)
    (hwaits : consumer.WaitsFor provider) :
    [provider.id, consumer.id].Sublist registry.planOf.order := by
  by_cases hphase : provider.phase = consumer.phase
  · exact pair_sublist_of_same_phase h hprovider hconsumer hphase hwaits
  · apply pair_sublist_of_earlier_phase h hprovider hconsumer
    rcases hwaits with hnamed | ⟨x, hneeds, hprovides⟩
    -- What is named is in the same phase.
    · obtain ⟨named, hmem, hid, hsame⟩ := h.named_in_phase consumer hconsumer _ hnamed
      rw [eq_of_id_eq hmem hprovider hid] at hsame
      exact absurd hsame hphase
    -- What is provided is in no later phase.
    · have hintime := h.provided_in_time provider hprovider consumer hconsumer x hprovides
        (.inl hneeds)
      have hne : provider.phase.rank ≠ consumer.phase.rank := mt Phase.rank_injective hphase
      rw [Phase.lt_iff_rank_lt] at hintime ⊢
      omega

end Registry

/-- A plan lists every component once, in its phase, the phases in order, and each component after
those that it names and those that provide what it needs. -/
theorem order_of_schedule {registry : Registry} {plan : Plan}
    (h : (schedule registry).result = .ok plan) :
    (plan.order.Nodup ∧ ∀ id, id ∈ plan.order ↔ id ∈ registry.ids) ∧
      plan.phases.map PhaseOrder.phase = Phase.all ∧
      (∀ order ∈ plan.phases, ∀ component ∈ registry.components,
        component.id ∈ order.components ↔ component.phase = order.phase) ∧
      ∀ consumer ∈ registry.components,
        (∀ id ∈ consumer.dependsOn, plan.Before id consumer.id) ∧
          ∀ provider ∈ registry.components, ∀ x ∈ consumer.needs, x ∈ provider.provides →
            plan.Before provider.id consumer.id := by
  obtain ⟨hsound, rfl⟩ := schedule_eq_ok_iff.mp h
  have hnodup := Registry.nodup_order_planOf hsound
  have hbefore {provider consumer : Component} (hprovider : provider ∈ registry.components)
      (hconsumer : consumer ∈ registry.components) (hwaits : consumer.WaitsFor provider) :
      registry.planOf.Before provider.id consumer.id :=
    Plan.before_of_pair_sublist hnodup
      (Registry.pair_sublist_order_planOf hsound hprovider hconsumer hwaits)
  refine ⟨⟨hnodup, fun id => Registry.mem_order_planOf_iff hsound⟩, ?_, ?_,
    fun consumer hconsumer => ⟨fun id hnamed => ?_, fun provider hprovider x hneeds hprovides => ?_⟩⟩
  · simp [Registry.planOf, Function.comp_def]
  · intro order horder component hmem
    obtain ⟨phase, -, rfl⟩ := List.mem_map.mp horder
    exact Registry.mem_placed_graphOf_iff_phase hsound hmem
  · obtain ⟨provider, hprovider, rfl, -⟩ := hsound.named_in_phase consumer hconsumer id hnamed
    exact hbefore hprovider hconsumer (.inl hnamed)
  · exact hbefore hprovider hconsumer (.inr ⟨x, hneeds, hprovides⟩)

/-- A component that runs once and neither provides nor needs anything. -/
def Component.plain (name : String) (phase : Phase) : Component where
  id := ⟨name⟩
  displayName := name
  required := true
  phase := phase
  execution := .global ⟨"initialize", by decide⟩
  provides := .empty
  dependsOn := .empty
  needs := .empty
  importance := .default

/-- Three components of which each waits for the next one: by its name, for what it provides, and
not at all. -/
def Component.timer : Component :=
  { plain "timer" .coreDevices with dependsOn := .ofList [⟨"bus"⟩] }

@[inherit_doc Component.timer]
def Component.bus : Component :=
  { plain "bus" .coreDevices with needs := .ofList [⟨"heap"⟩] }

@[inherit_doc Component.timer]
def Component.pages : Component :=
  { plain "pages" .memoryManagement with provides := .ofList [⟨"heap"⟩] }

/-- A registry that lists its components in the reverse of the order in which they can run. -/
def Registry.reversed : Registry where
  entries := [⟨.timer, "devices.toml"⟩, ⟨.bus, "devices.toml"⟩, ⟨.pages, "memory.toml"⟩]
  nodup_ids := by decide

theorem order_of_schedule_reversed :
    ∃ plan, (schedule Registry.reversed).result = .ok plan ∧
      plan.Before ⟨"bus"⟩ ⟨"timer"⟩ ∧ plan.Before ⟨"pages"⟩ ⟨"bus"⟩ := by
  let plan : Plan := ⟨[⟨.cppInit, []⟩, ⟨.processorEarly, []⟩, ⟨.memoryManagement, [⟨"pages"⟩]⟩,
    ⟨.coreDevices, [⟨"bus"⟩, ⟨"timer"⟩]⟩, ⟨.smpBringup, []⟩]⟩
  have hplan : (schedule Registry.reversed).result = .ok plan := by decide
  obtain ⟨-, -, -, hbefore⟩ := order_of_schedule hplan
  refine ⟨plan, hplan, ?_, ?_⟩
  · exact (hbefore .timer (by decide)).1 ⟨"bus"⟩ (by decide)
  · exact (hbefore .bus (by decide)).2 .pages (by decide) ⟨"heap"⟩ (by decide) (by decide)

end BootTable
