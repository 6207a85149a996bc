import BootTable.Plan
import BootTable.Proofs.PhaseGraph.Sorting

/-!
# BootTable — which registries have a plan

Scheduling lists providers, applies the rules about the whole registry and orders one graph after
the other. None of these steps is written as the condition that it decides; `Schedulable` states
the conditions of all of them in terms of the components alone, and `planOf` the plan that follows.

* **`acyclic_graphOf_iff`**: a graph of ids has a circle exactly if its members wait in one.
* **`orderPhases_eq_ok_iff`**: the loop over the phases, as one statement about each phase.
* **`schedule_eq_ok_iff`**: the whole way; every other statement about plans starts from it.
* **`exists_plan_iff_schedulable`**: the conditions decide whether there is a plan.
* **`Schedulable.of_mem_iff`**, **`planOf_eq_of_inPhase_eq`**: the conditions do not depend on the
  first-seen order, and the plan depends on that of each phase alone.
-/

namespace BootTable

open Relation

namespace Registry

/-- Two members of a phase of which the second one waits for the first one. -/
def LeadsIn (registry : Registry) (phase : Phase) (provider consumer : Component) : Prop :=
  provider ∈ registry.inPhase phase ∧ consumer ∈ registry.inPhase phase ∧
    consumer.WaitsFor provider

/-- The conditions under which the components of a registry can be ordered. -/
structure Schedulable (registry : Registry) : Prop where
  /-- At most one component provides the numbering of processors. -/
  numbered_once : ∀ p ∈ registry.components, ∀ q ∈ registry.components,
    Capability.logicalCpuId ∈ p.provides → Capability.logicalCpuId ∈ q.provides → p = q
  /-- No capability is provided in a phase after that of a component that needs it. -/
  provided_in_time : ∀ p ∈ registry.components, ∀ c ∈ registry.components, ∀ x ∈ p.provides,
    x ∈ c.needs ∨ x ∈ c.apNeeds → ¬c.phase < p.phase
  /-- Components that are named are defined, in the phase of the one that names them. -/
  named_in_phase : ∀ c ∈ registry.components, ∀ id ∈ c.dependsOn,
    ∃ p ∈ registry.components, p.id = id ∧ p.phase = c.phase
  /-- What required components need is provided. -/
  required_provided : ∀ c ∈ registry.components, c.required = true → ∀ x ∈ c.needs,
    ∃ p ∈ registry.components, x ∈ p.provides
  /-- What application processors need is provided by a component that runs once, before they
  start. -/
  ap_initialized : ∀ c ∈ registry.components, ∀ x ∈ c.apNeeds,
    ∃ p ∈ registry.components, x ∈ p.provides ∧ p.isPerCpu = false ∧ p.phase < Phase.smpBringup
  /-- In no phase does a component wait for itself, directly or through others. -/
  acyclic : ∀ phase component, ¬TransGen (registry.LeadsIn phase) component component

/-- The graph of a phase, by the members of the phase. -/
def graphOf (registry : Registry) (phase : Phase) : PhaseGraph :=
  PhaseGraph.ofMembers phase (registry.inPhase phase)

/-- The plan of a registry that has one. -/
def planOf (registry : Registry) : Plan :=
  ⟨Phase.all.map fun phase => ⟨phase, (registry.graphOf phase).finalSorting.placed⟩⟩

theorem wellFormed_graphOf (registry : Registry) (phase : Phase) :
    (registry.graphOf phase).WellFormed :=
  PhaseGraph.wellFormed_ofMembers phase (registry.nodup_map_id_inPhase phase)

/-! ## Circles of ids and of components -/

theorem precedes_graphOf_iff {registry : Registry} {phase : Phase}
    {provider consumer : ComponentId} :
    (registry.graphOf phase).Precedes provider consumer ↔
      ∃ p c, registry.LeadsIn phase p c ∧ p.id = provider ∧ c.id = consumer := by
  unfold graphOf LeadsIn
  rw [PhaseGraph.precedes_ofMembers_iff]
  constructor
  · rintro ⟨p, hp, c, hc, hprovider, hconsumer, hwaits⟩
    exact ⟨p, c, ⟨hp, hc, hwaits⟩, hprovider, hconsumer⟩
  · rintro ⟨p, c, ⟨hp, hc, hwaits⟩, hprovider, hconsumer⟩
    exact ⟨p, hp, c, hc, hprovider, hconsumer, hwaits⟩

theorem exists_transGen_leadsIn {registry : Registry} {phase : Phase} {a b : ComponentId}
    (h : TransGen (registry.graphOf phase).Precedes a b) :
    ∃ c d, TransGen (registry.LeadsIn phase) c d ∧ c.id = a ∧ d.id = b := by
  -- Ids are unique: the component at which one edge ends is the one from which the next one leads.
  induction h with
  | single h =>
    obtain ⟨p, c, hleads, rfl, rfl⟩ := precedes_graphOf_iff.mp h
    exact ⟨p, c, .single hleads, rfl, rfl⟩
  | tail _ h ih =>
    obtain ⟨first, last, hway, rfl, rfl⟩ := ih
    obtain ⟨p, c, hleads, hid, rfl⟩ := precedes_graphOf_iff.mp h
    have hlast : last ∈ registry.components := by
      obtain ⟨_, _, hend⟩ := TransGen.tail'_iff.mp hway
      exact (mem_inPhase.mp hend.2.1).1
    have hsame : p = last := eq_of_id_eq (mem_inPhase.mp hleads.1).1 hlast hid
    subst hsame
    exact ⟨first, c, hway.tail hleads, rfl, rfl⟩

theorem acyclic_graphOf_iff {registry : Registry} {phase : Phase} :
    (registry.graphOf phase).Acyclic ↔
      ∀ component, ¬TransGen (registry.LeadsIn phase) component component := by
  constructor
  · intro h component hcycle
    exact h component.id (hcycle.lift Component.id fun p c hleads =>
      precedes_graphOf_iff.mpr ⟨p, c, hleads, rfl, rfl⟩)
  · intro h id hcycle
    obtain ⟨c, d, hway, rfl, hid⟩ := exists_transGen_leadsIn hcycle
    have hc : c ∈ registry.components := by
      obtain ⟨_, hstart, _⟩ := TransGen.head'_iff.mp hway
      exact (mem_inPhase.mp hstart.1).1
    have hd : d ∈ registry.components := by
      obtain ⟨_, _, hend⟩ := TransGen.tail'_iff.mp hway
      exact (mem_inPhase.mp hend.2.1).1
    rw [eq_of_id_eq hd hc hid] at hway
    exact h c hway

end Registry

/-! ## The phases one after the other -/

theorem orderPhase_eq_ok_iff {registry : Registry} {index : CapabilityIndex}
    (hindex : CapabilityIndex.build registry = .ok index) {phase : Phase} {order : PhaseOrder} :
    (orderPhase registry index phase).result = .ok order ↔
      (∀ component ∈ registry.inPhase phase, registry.dependenciesFault? component = none) ∧
        (registry.graphOf phase).Acyclic ∧
        order = ⟨phase, (registry.graphOf phase).finalSorting.placed⟩ := by
  have hsort {ids : List ComponentId} : (registry.graphOf phase).sort = .ok ids ↔ _ :=
    PhaseGraph.sort_eq_ok_iff (registry.wellFormed_graphOf phase)
  unfold orderPhase
  simp only [Logged.result_bind_eq_ok_iff, Logged.result_ofExcept,
    PhaseGraph.build_eq_ok_iff hindex]
  constructor
  · rintro ⟨graph, ⟨hsound, rfl⟩, ids, hids, ⟨⟩, -, horder⟩
    obtain ⟨hacyclic, rfl⟩ := hsort.mp hids
    cases horder
    exact ⟨hsound, hacyclic, rfl⟩
  · rintro ⟨hsound, hacyclic, rfl⟩
    exact ⟨_, ⟨hsound, rfl⟩, _, hsort.mpr ⟨hacyclic, rfl⟩, (), rfl, rfl⟩

theorem orderPhases_eq_ok_iff {registry : Registry} {index : CapabilityIndex}
    (hindex : CapabilityIndex.build registry = .ok index) {phases : List Phase}
    {orders : List PhaseOrder} :
    (orderPhases registry index phases).result = .ok orders ↔
      (∀ phase ∈ phases,
        (∀ component ∈ registry.inPhase phase, registry.dependenciesFault? component = none) ∧
          (registry.graphOf phase).Acyclic) ∧
        orders = phases.map fun phase => ⟨phase, (registry.graphOf phase).finalSorting.placed⟩ := by
  induction phases generalizing orders with
  | nil =>
    unfold orderPhases
    simp [eq_comm]
  | cons phase others ih =>
    unfold orderPhases
    simp only [Logged.result_bind_eq_ok_iff, orderPhase_eq_ok_iff hindex, ih, List.forall_mem_cons,
      List.map_cons]
    constructor
    · rintro ⟨order, ⟨hsound, hacyclic, rfl⟩, rest, ⟨hothers, rfl⟩, horders⟩
      cases horders
      exact ⟨⟨⟨hsound, hacyclic⟩, hothers⟩, rfl⟩
    · rintro ⟨⟨⟨hsound, hacyclic⟩, hothers⟩, rfl⟩
      exact ⟨_, ⟨hsound, hacyclic, rfl⟩, _, ⟨hothers, rfl⟩, rfl⟩

/-! ## Scheduling -/

theorem schedulable_iff {registry : Registry} {index : CapabilityIndex}
    (hindex : CapabilityIndex.build registry = .ok index) :
    registry.Schedulable ↔ registry.fault? index = none ∧
      ∀ phase ∈ Phase.all,
        (∀ component ∈ registry.inPhase phase, registry.dependenciesFault? component = none) ∧
          (registry.graphOf phase).Acyclic := by
  rw [Registry.fault?_eq_none_iff, Registry.capabilityOrderFault?_eq_none_iff,
    Registry.explicitFault?_eq_none_iff, Registry.requiredFault?_eq_none_iff hindex,
    Registry.apFault?_eq_none_iff]
  constructor
  · intro h
    refine ⟨⟨h.provided_in_time, h.named_in_phase, h.required_provided, h.ap_initialized⟩,
      fun phase _ => ⟨fun component hmem => ?_, ?_⟩⟩
    · exact Registry.dependenciesFault?_eq_none_iff.mpr
        (h.named_in_phase component (Registry.mem_inPhase.mp hmem).1)
    · exact Registry.acyclic_graphOf_iff.mpr (h.acyclic phase)
  · rintro ⟨⟨hintime, hnamed, hrequired, hap⟩, hphases⟩
    exact {
      numbered_once := (CapabilityIndex.build_eq_ok_iff.mp hindex).1
      provided_in_time := hintime
      named_in_phase := hnamed
      required_provided := hrequired
      ap_initialized := hap
      acyclic := fun phase =>
        Registry.acyclic_graphOf_iff.mp (hphases phase (Phase.mem_all phase)).2 }

/-- Scheduling succeeds under the conditions alone, and then answers the plan of the registry. -/
theorem schedule_eq_ok_iff {registry : Registry} {plan : Plan} :
    (schedule registry).result = .ok plan ↔ registry.Schedulable ∧ plan = registry.planOf := by
  unfold schedule
  simp only [Logged.result_bind_eq_ok_iff, Logged.result_ofExcept, mapError_eq_ok_iff]
  constructor
  · rintro ⟨index, hindex, ⟨⟩, -, ⟨⟩, hrejected, ⟨⟩, -, phases, hphases, ⟨⟩, -, hplan⟩
    obtain ⟨hordered, rfl⟩ := (orderPhases_eq_ok_iff hindex).mp hphases
    cases hplan
    exact ⟨(schedulable_iff hindex).mpr
      ⟨Logged.result_reject_eq_ok_iff.mp hrejected, hordered⟩, rfl⟩
  · rintro ⟨h, rfl⟩
    have hindex : CapabilityIndex.build registry = .ok _ :=
      CapabilityIndex.build_eq_ok_iff.mpr ⟨h.numbered_once, rfl⟩
    obtain ⟨hfault, hordered⟩ := (schedulable_iff hindex).mp h
    refine ⟨_, hindex, (), rfl, (), Logged.result_reject_eq_ok_iff.mpr hfault,
      (), rfl, _, (orderPhases_eq_ok_iff hindex).mpr ⟨hordered, rfl⟩, (), rfl, rfl⟩

theorem exists_plan_iff_schedulable {registry : Registry} :
    (∃ plan, (schedule registry).result = .ok plan) ↔ registry.Schedulable := by
  constructor
  · rintro ⟨plan, hplan⟩
    exact (schedule_eq_ok_iff.mp hplan).1
  · intro h
    exact ⟨registry.planOf, schedule_eq_ok_iff.mpr ⟨h, rfl⟩⟩

/-! ## Registries with the same components -/

namespace Registry

variable {registry other : Registry}

theorem Schedulable.of_mem_iff
    (hsame : ∀ component, component ∈ registry.components ↔ component ∈ other.components)
    (h : registry.Schedulable) : other.Schedulable := by
  have hleads : registry.LeadsIn = other.LeadsIn := by
    funext phase provider consumer
    simp only [LeadsIn, mem_inPhase, hsame]
  obtain ⟨hunique, hintime, hnamed, hrequired, hap, hacyclic⟩ := h
  simp only [hsame] at hunique hintime hnamed hrequired hap
  rw [hleads] at hacyclic
  exact ⟨hunique, hintime, hnamed, hrequired, hap, hacyclic⟩

theorem planOf_eq_of_inPhase_eq (h : ∀ phase, registry.inPhase phase = other.inPhase phase) :
    registry.planOf = other.planOf := by
  unfold planOf graphOf
  simp only [h]

end Registry

end BootTable
