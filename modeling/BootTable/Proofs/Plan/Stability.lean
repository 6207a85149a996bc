import BootTable.Proofs.PhaseGraph.Closure
import BootTable.Proofs.PhaseGraph.Restriction
import BootTable.Proofs.Plan.Order

/-!
# BootTable — changes of a registry that keep the order

Two changes leave the order of a plan as it is. Components may be added anywhere, as long as what
was there needs nothing from them in its own phase: they may stand between the others and delay
them, but the others keep their order. And components may name or need more of what they wait for
anyway, through others: the plan stays the same.

* **`Registry.restricts_graphOf_of_removed`**: what stays is a part of each graph that waits for
  nothing outside.
* **`componentsOf_eq_filter_of_removed`**: each phase without the removed components.
* **`Registry.precedes_graphOf_eq`**, **`Registry.nodes_graphOf_eq`**: what a graph has, by ids.
* **`plan_eq_of_transGen_eq`**: the plan is a function of ids, phases and the closure of waiting.
-/

namespace BootTable

open Relation

/-! ## Removed components -/

namespace Registry

section

variable {full rest : Registry} {removed : List ComponentId}
  (hrest : rest.components = full.components.filter fun component => component.id ∉ removed)

include hrest

theorem inPhase_of_removed (phase : Phase) :
    rest.inPhase phase =
      (full.inPhase phase).filter fun component => component.id ∉ removed := by
  unfold inPhase
  rw [hrest]
  exact List.filter_comm _ _ _

theorem restricts_graphOf_of_removed (hsound : rest.Schedulable)
    (hunneeded : ∀ p ∈ full.components, p.id ∈ removed → ∀ c ∈ rest.components,
      c.phase = p.phase → ∀ x ∈ c.needs, x ∉ p.provides) (phase : Phase) :
    PhaseGraph.Restricts (fun id => id ∉ removed) (rest.graphOf phase) (full.graphOf phase) := by
  unfold graphOf
  rw [inPhase_of_removed hrest]
  apply PhaseGraph.restricts_ofMembers
  intro p hp c hc hwaits hkept
  obtain ⟨hp, hphase⟩ := mem_inPhase.mp hp
  obtain ⟨hc, hphase'⟩ := mem_inPhase.mp hc
  have hstays : c ∈ rest.components := by
    rw [hrest]
    exact List.mem_filter.mpr ⟨hc, hkept⟩
  refine decide_eq_true fun hremoved => ?_
  rcases hwaits with hnamed | ⟨x, hneeds, hprovides⟩
  -- What is named has to be defined without the removed components too.
  · obtain ⟨named, hmem, hid, -⟩ := hsound.named_in_phase c hstays p.id hnamed
    rw [hrest] at hmem
    have hkept' := of_decide_eq_true (List.mem_filter.mp hmem).2
    rw [hid] at hkept'
    exact hkept' hremoved
  · exact hunneeded p hp hremoved c hstays (hphase'.trans hphase.symm) x hneeds hprovides

end

end Registry

/-- Components that are added to a registry, anywhere in the first-seen order, do not reorder those
that were there, unless these need what an added one provides in their phase. -/
theorem componentsOf_eq_filter_of_removed {full rest : Registry} {fullPlan restPlan : Plan}
    {removed : List ComponentId}
    (hrest : rest.components = full.components.filter fun component => component.id ∉ removed)
    (hunneeded : ∀ p ∈ full.components, p.id ∈ removed → ∀ c ∈ rest.components,
      c.phase = p.phase → ∀ x ∈ c.needs, x ∉ p.provides)
    (hfull : (schedule full).result = .ok fullPlan)
    (h : (schedule rest).result = .ok restPlan) (phase : Phase) :
    restPlan.componentsOf phase =
      (fullPlan.componentsOf phase).filter fun id => id ∉ removed := by
  obtain ⟨-, rfl⟩ := schedule_eq_ok_iff.mp hfull
  obtain ⟨hsound, rfl⟩ := schedule_eq_ok_iff.mp h
  have hpart := Registry.restricts_graphOf_of_removed hrest hsound hunneeded phase
  rw [Registry.componentsOf_planOf, Registry.componentsOf_planOf]
  exact (PhaseGraph.filter_placed_finalSorting (rest.wellFormed_graphOf phase)
    (full.wellFormed_graphOf phase) hpart).symm

/-- Between the components of `Registry.reversed`, one that comes first in the same phase, one that
waits for what stays, and a second provider of what `bus` needs, in an earlier phase. -/
def Registry.interspersed : Registry where
  entries := [⟨.plain "probe" .coreDevices, "probe.toml"⟩, ⟨.timer, "devices.toml"⟩,
    ⟨{ Component.plain "frames" .memoryManagement with provides := .ofList [⟨"heap"⟩] },
      "memory.toml"⟩,
    ⟨{ Component.plain "console" .coreDevices with dependsOn := .ofList [⟨"bus"⟩, ⟨"probe"⟩] },
      "console.toml"⟩,
    ⟨.bus, "devices.toml"⟩, ⟨.pages, "memory.toml"⟩]
  nodup_ids := by decide

theorem componentsOf_eq_filter_of_removed_interspersed :
    ∃ fullPlan restPlan, (schedule Registry.interspersed).result = .ok fullPlan ∧
      (schedule Registry.reversed).result = .ok restPlan ∧
      restPlan.componentsOf .coreDevices =
        (fullPlan.componentsOf .coreDevices).filter fun id =>
          id ∉ [⟨"probe"⟩, ⟨"frames"⟩, ⟨"console"⟩] := by
  obtain ⟨fullPlan, hfull⟩ : ∃ plan, (schedule Registry.interspersed).result = .ok plan :=
    isOk_iff.mp (by decide)
  obtain ⟨restPlan, hrest⟩ : ∃ plan, (schedule Registry.reversed).result = .ok plan :=
    isOk_iff.mp (by decide)
  exact ⟨fullPlan, restPlan, hfull, hrest,
    componentsOf_eq_filter_of_removed (by decide) (by decide) hfull hrest .coreDevices⟩

/-! ## Implied dependencies -/

namespace Registry

/-- The ids of two members of a phase of which the second one waits for the first one. -/
def IdLeadsIn (registry : Registry) (phase : Phase) : ComponentId → ComponentId → Prop :=
  Relation.Map (registry.LeadsIn phase) Component.id Component.id

theorem precedes_graphOf_eq (registry : Registry) (phase : Phase) :
    (registry.graphOf phase).Precedes = registry.IdLeadsIn phase := by
  funext provider consumer
  exact propext precedes_graphOf_iff

/-- The nodes of a graph depend on nothing but ids and phases. -/
theorem nodes_graphOf_eq {registry other : Registry}
    (hids : registry.components.map (fun component => (component.id, component.phase)) =
      other.components.map fun component => (component.id, component.phase)) (phase : Phase) :
    (registry.graphOf phase).nodes = (other.graphOf phase).nodes := by
  have hnodes (registry : Registry) : (registry.graphOf phase).nodes =
      ((registry.components.map fun component => (component.id, component.phase)).filter
        fun pair => pair.2 = phase).map Prod.fst := by
    show (registry.components.filter fun component => component.phase = phase).map Component.id = _
    rw [List.filter_map, List.map_map]
    rfl
  rw [hnodes, hnodes, hids]

end Registry

/-- Dependencies that others imply do not change the plan: it is the same for registries with the
same ids and phases, in the same order, in which waiting has the same transitive closure. -/
theorem plan_eq_of_transGen_eq {registry other : Registry} {plan otherPlan : Plan}
    (hids : registry.components.map (fun component => (component.id, component.phase)) =
      other.components.map fun component => (component.id, component.phase))
    (hclosure : ∀ phase, TransGen (registry.IdLeadsIn phase) = TransGen (other.IdLeadsIn phase))
    (h : (schedule registry).result = .ok plan)
    (hother : (schedule other).result = .ok otherPlan) : plan = otherPlan := by
  obtain ⟨-, rfl⟩ := schedule_eq_ok_iff.mp h
  obtain ⟨-, rfl⟩ := schedule_eq_ok_iff.mp hother
  have hplaced (phase : Phase) : (registry.graphOf phase).finalSorting.placed =
      (other.graphOf phase).finalSorting.placed := by
    apply PhaseGraph.placed_finalSorting_eq (registry.wellFormed_graphOf phase)
      (other.wellFormed_graphOf phase) (Registry.nodes_graphOf_eq hids phase)
    rw [Registry.precedes_graphOf_eq, Registry.precedes_graphOf_eq]
    exact hclosure phase
  unfold Registry.planOf
  simp only [hplaced]

/-- A device that waits for `disk`, which waits for the provider of interrupts, `bus`. -/
def Registry.chained : Registry where
  entries := [⟨.plain "log" .coreDevices, "devices.toml"⟩,
    ⟨{ Component.plain "timer" .coreDevices with dependsOn := .ofList [⟨"disk"⟩] },
      "devices.toml"⟩,
    ⟨{ Component.plain "disk" .coreDevices with needs := .ofList [⟨"irq"⟩] }, "devices.toml"⟩,
    ⟨{ Component.plain "bus" .coreDevices with provides := .ofList [⟨"irq"⟩] }, "devices.toml"⟩]
  nodup_ids := by decide

/-- The same components, of which `timer` says twice more that it waits for `bus`. -/
def Registry.chainedTwice : Registry where
  entries := [⟨.plain "log" .coreDevices, "devices.toml"⟩,
    ⟨{ Component.plain "timer" .coreDevices with
        dependsOn := .ofList [⟨"bus"⟩, ⟨"disk"⟩], needs := .ofList [⟨"irq"⟩] }, "devices.toml"⟩,
    ⟨{ Component.plain "disk" .coreDevices with needs := .ofList [⟨"irq"⟩] }, "devices.toml"⟩,
    ⟨{ Component.plain "bus" .coreDevices with provides := .ofList [⟨"irq"⟩] }, "devices.toml"⟩]
  nodup_ids := by decide

theorem plan_eq_of_transGen_eq_chained : ∃ plan, (schedule Registry.chained).result = .ok plan ∧
    (schedule Registry.chainedTwice).result = .ok plan := by
  obtain ⟨plan, hplan⟩ : ∃ plan, (schedule Registry.chained).result = .ok plan :=
    isOk_iff.mp (by decide)
  obtain ⟨other, hother⟩ : ∃ plan, (schedule Registry.chainedTwice).result = .ok plan :=
    isOk_iff.mp (by decide)
  have hclosure (phase : Phase) : TransGen (Registry.chained.IdLeadsIn phase) =
      TransGen (Registry.chainedTwice.IdLeadsIn phase) := by
    rw [← Registry.precedes_graphOf_eq, ← Registry.precedes_graphOf_eq]
    apply le_antisymm
    · apply TransGen.mono
      have hkept : ∀ edge ∈ (Registry.chained.graphOf phase).edges,
          edge ∈ (Registry.chainedTwice.graphOf phase).edges := by
        cases phase <;> decide
      exact fun provider consumer hedge => hkept _ hedge
    · apply TransGen.closed
      intro provider consumer hedge
      -- The one new edge, from `bus` to `timer`, shortens a way of two.
      have hadded : ∀ edge ∈ (Registry.chainedTwice.graphOf phase).edges,
          edge ∈ (Registry.chained.graphOf phase).edges ∨
            phase = .coreDevices ∧ edge = ⟨⟨"bus"⟩, ⟨"timer"⟩⟩ := by
        cases phase <;> decide
      rcases hadded _ hedge with hold | ⟨rfl, hnew⟩
      · exact .single hold
      · cases hnew
        have hfirst : (Registry.chained.graphOf .coreDevices).Precedes ⟨"bus"⟩ ⟨"disk"⟩ := by decide
        have hlast : (Registry.chained.graphOf .coreDevices).Precedes ⟨"disk"⟩ ⟨"timer"⟩ := by decide
        exact .tail (.single hfirst) hlast
  have hsame : plan = other := plan_eq_of_transGen_eq (by decide) hclosure hplan hother
  exact ⟨plan, hplan, hsame ▸ hother⟩

end BootTable
