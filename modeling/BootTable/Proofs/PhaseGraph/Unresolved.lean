import BootTable.Proofs.Plan.Order

/-!
# BootTable — what cannot be ordered

A graph that was built can be sorted exactly if no component must, directly or through others,
complete before itself. Otherwise the error lists what lies on a circle or behind one. That is also
what no order whatever could contain: `Orderly` lists do not mention the algorithm.

* **`mem_unresolved_iff`**: the counters that are left at the end say what was not placed.
* **`orderable_iff_mem_placed`**: the algorithm places everything that some order contains.
* **`sort_of_build`**: both, in terms of the registry and the index.
-/

namespace BootTable

open Relation

/-- Some order of components that respects what must complete first contains the component. -/
def Orderable (precedes : ComponentId → ComponentId → Prop) (id : ComponentId) : Prop :=
  ∃ ids, PhaseGraph.Orderly precedes ids ∧ id ∈ ids

namespace PhaseGraph

section

variable {graph : PhaseGraph} (hgraph : graph.WellFormed)

include hgraph

/-- What still waits when the queue is empty is what was never placed. -/
theorem mem_unresolved_iff {id : ComponentId} :
    id ∈ graph.unresolved graph.finalSorting ↔
      id ∈ graph.nodes ∧ id ∉ graph.finalSorting.placed := by
  have hfinal := consistent_finalSorting hgraph
  have hplaced := hfinal.mem_iff id
  rw [queue_finalSorting hgraph, List.append_nil] at hplaced
  unfold unresolved
  rw [List.mem_filter, decide_eq_true_eq, hfinal.valence_eq, Ne, List.length_eq_zero_iff, hplaced]
  constructor
  · rintro ⟨hnode, hwaiting⟩
    exact ⟨hnode, fun h => hwaiting h.2⟩
  · rintro ⟨hnode, hwaiting⟩
    exact ⟨hnode, fun h => hwaiting ⟨hnode, h⟩⟩

theorem mem_unresolved_iff_behind_cycle {id : ComponentId} :
    id ∈ graph.unresolved graph.finalSorting ↔
      ∃ origin, TransGen graph.Precedes origin origin ∧
        ReflTransGen graph.Precedes origin id := by
  rw [mem_unresolved_iff hgraph]
  constructor
  · rintro ⟨hnode, hwaiting⟩
    exact (not_mem_placed_finalSorting_iff hgraph hnode).mp hwaiting
  · rintro ⟨origin, hcycle, hway⟩
    -- An edge leads to whatever is on a circle or behind one, so it is a node.
    obtain ⟨_, -, hedge⟩ := TransGen.tail'_iff.mp (hcycle.trans_left hway)
    have hnode := hgraph.consumer_mem hedge
    exact ⟨hnode, (not_mem_placed_finalSorting_iff hgraph hnode).mpr ⟨origin, hcycle, hway⟩⟩

theorem orderable_iff_mem_placed {id : ComponentId} (hnode : id ∈ graph.nodes) :
    Orderable graph.Precedes id ↔ id ∈ graph.finalSorting.placed := by
  constructor
  · rintro ⟨ids, hordered, hmem⟩
    by_contra hwaiting
    obtain ⟨origin, hcycle, hway⟩ :=
      (not_mem_placed_finalSorting_iff hgraph hnode).mp hwaiting
    exact hordered.not_mem_of_cycle hcycle hway hmem
  · intro hplaced
    exact ⟨_, (consistent_finalSorting hgraph).orderly, hplaced⟩

end

/-- A graph is sorted exactly if nothing must complete before itself. Otherwise what is reported as
unresolved is what lies on a circle or behind one, once each and in first-seen order, and of the
phase it is what no order could contain. -/
theorem sort_of_build {registry : Registry} {index : CapabilityIndex} {phase : Phase}
    {graph : PhaseGraph} (hbuild : (build registry index phase).result = .ok graph) :
    ((∃ order, graph.sort = .ok order) ↔
        ∀ id, ¬TransGen (registry.IsPrerequisiteIn index phase) id id) ∧
      ∀ cause, graph.sort = .error cause → ∃ cycle unresolved,
        cause = .dependencyCycle phase cycle unresolved ∧
        unresolved.Nodup ∧ unresolved.Sublist registry.ids ∧
        (∀ id, id ∈ unresolved ↔
          ∃ origin, TransGen (registry.IsPrerequisiteIn index phase) origin origin ∧
            ReflTransGen (registry.IsPrerequisiteIn index phase) origin id) ∧
        ∀ component ∈ registry.inPhase phase,
          component.id ∈ unresolved ↔
            ¬Orderable (registry.IsPrerequisiteIn index phase) component.id := by
  have hgraph := wellFormed_of_build hbuild
  have hprecedes : graph.Precedes = registry.IsPrerequisiteIn index phase := by
    funext provider consumer
    exact propext (precedes_of_build_iff hbuild)
  rw [← hprecedes]
  refine ⟨?sorted, fun cause herror => ?failed⟩
  case sorted =>
    simp only [sort_eq_ok_iff hgraph, exists_and_left, exists_eq, and_true]
    exact Iff.rfl
  case failed =>
    obtain ⟨-, rfl⟩ := (sort_eq_error_iff hgraph).mp herror
    have hsub : (graph.unresolved graph.finalSorting).Sublist graph.nodes := List.filter_sublist
    refine ⟨_, _, by rw [phase_of_build hbuild], hgraph.nodup_nodes.sublist hsub,
      hsub.trans (nodes_sublist_ids hbuild), fun id => mem_unresolved_iff_behind_cycle hgraph,
      fun component hmem => ?_⟩
    have hnode : component.id ∈ graph.nodes := by
      rw [nodes_of_build hbuild]
      exact List.mem_map_of_mem hmem
    rw [mem_unresolved_iff hgraph, orderable_iff_mem_placed hgraph hnode]
    exact and_iff_right hnode

end PhaseGraph

/-- Two devices that wait for each other, one that waits for them, one that waits for itself and one
that waits for nothing. -/
def Registry.knotted : Registry where
  entries := [⟨{ Component.plain "disk" .coreDevices with dependsOn := .ofList [⟨"bus"⟩] },
      "devices.toml"⟩,
    ⟨{ Component.plain "bus" .coreDevices with needs := .ofList [⟨"irq"⟩] }, "devices.toml"⟩,
    ⟨.plain "log" .coreDevices, "devices.toml"⟩,
    ⟨{ Component.plain "pic" .coreDevices with
        provides := .ofList [⟨"irq"⟩], dependsOn := .ofList [⟨"bus"⟩] }, "devices.toml"⟩,
    ⟨{ Component.plain "echo" .coreDevices with dependsOn := .ofList [⟨"echo"⟩] }, "devices.toml"⟩]
  nodup_ids := by decide

namespace PhaseGraph

@[inherit_doc Registry.knotted]
def knotted : PhaseGraph where
  phase := .coreDevices
  nodes := [⟨"disk"⟩, ⟨"bus"⟩, ⟨"log"⟩, ⟨"pic"⟩, ⟨"echo"⟩]
  edges := [⟨⟨"bus"⟩, ⟨"disk"⟩⟩, ⟨⟨"pic"⟩, ⟨"bus"⟩⟩, ⟨⟨"bus"⟩, ⟨"pic"⟩⟩, ⟨⟨"echo"⟩, ⟨"echo"⟩⟩]

theorem sort_of_build_knotted :
    knotted.sort = .error (.dependencyCycle .coreDevices [⟨"bus"⟩, ⟨"pic"⟩]
        [⟨"disk"⟩, ⟨"bus"⟩, ⟨"pic"⟩, ⟨"echo"⟩]) ∧
      ¬Orderable (Registry.knotted.IsPrerequisiteIn ⟨[(⟨"irq"⟩, [⟨"pic"⟩])]⟩ .coreDevices)
        ⟨"disk"⟩ ∧
      Orderable (Registry.knotted.IsPrerequisiteIn ⟨[(⟨"irq"⟩, [⟨"pic"⟩])]⟩ .coreDevices)
        ⟨"log"⟩ := by
  have hbuild : (build .knotted ⟨[(⟨"irq"⟩, [⟨"pic"⟩])]⟩ .coreDevices).result = .ok knotted := by
    decide
  have herror : knotted.sort = .error (.dependencyCycle .coreDevices [⟨"bus"⟩, ⟨"pic"⟩]
      [⟨"disk"⟩, ⟨"bus"⟩, ⟨"pic"⟩, ⟨"echo"⟩]) := by
    decide
  obtain ⟨cycle, unresolved, hcause, -, -, -, horderable⟩ := (sort_of_build hbuild).2 _ herror
  cases hcause
  have hdisk := horderable { Component.plain "disk" .coreDevices with
    dependsOn := .ofList [⟨"bus"⟩] } (by decide)
  have hlog := horderable (Component.plain "log" .coreDevices) (by decide)
  exact ⟨herror, hdisk.mp (by decide), not_not.mp (mt hlog.mpr (by decide))⟩

end PhaseGraph

end BootTable
