import BootTable.Proofs.Generate
import BootTable.Proofs.Plan.Stability
import BootTable.Proofs.RelatedLists

/-!
# BootTable — registries that differ in the order of lists

The lists of a component are read for their members only: nothing that scheduling decides, no edge
and no flag depends on their order. Components are alike if they differ in nothing else, and
registries if their components are alike one by one.

* **`Schedulable.of_alike`**: rule by rule, what one registry keeps the other keeps.
* **`precedes_graphOf_eq_of_alike`**, **`planOf_eq_of_alike`**: the graphs have the same nodes and
  edges, so the orders are the same.
* **`textOf_eq_of_alike`**: the entries are the same.
-/

namespace BootTable

/-! ## Components -/

/-- Components that differ in the order of their lists alone. -/
structure Component.Alike (a b : Component) : Prop where
  id_eq : a.id = b.id
  displayName_eq : a.displayName = b.displayName
  required_eq : a.required = b.required
  phase_eq : a.phase = b.phase
  bootstrap_eq : a.execution.bootstrap = b.execution.bootstrap
  ap_eq : a.execution.ap = b.execution.ap
  isPerCpu_eq : a.isPerCpu = b.isPerCpu
  importance_eq : a.importance = b.importance
  provides : ∀ capability, capability ∈ a.provides ↔ capability ∈ b.provides
  dependsOn : ∀ id, id ∈ a.dependsOn ↔ id ∈ b.dependsOn
  needs : ∀ capability, capability ∈ a.needs ↔ capability ∈ b.needs
  apNeeds : ∀ capability, capability ∈ a.apNeeds ↔ capability ∈ b.apNeeds

namespace Component.Alike

variable {a b c d : Component}

theorem refl (component : Component) : component.Alike component where
  id_eq := rfl
  displayName_eq := rfl
  required_eq := rfl
  phase_eq := rfl
  bootstrap_eq := rfl
  ap_eq := rfl
  isPerCpu_eq := rfl
  importance_eq := rfl
  provides _ := Iff.rfl
  dependsOn _ := Iff.rfl
  needs _ := Iff.rfl
  apNeeds _ := Iff.rfl

theorem symm (h : a.Alike b) : b.Alike a where
  id_eq := h.id_eq.symm
  displayName_eq := h.displayName_eq.symm
  required_eq := h.required_eq.symm
  phase_eq := h.phase_eq.symm
  bootstrap_eq := h.bootstrap_eq.symm
  ap_eq := h.ap_eq.symm
  isPerCpu_eq := h.isPerCpu_eq.symm
  importance_eq := h.importance_eq.symm
  provides capability := (h.provides capability).symm
  dependsOn id := (h.dependsOn id).symm
  needs capability := (h.needs capability).symm
  apNeeds capability := (h.apNeeds capability).symm

theorem ofComponent_eq (h : a.Alike b) : Entry.ofComponent a = Entry.ofComponent b := by
  unfold Entry.ofComponent
  rw [h.id_eq, h.displayName_eq, h.required_eq, h.bootstrap_eq, h.ap_eq, h.isPerCpu_eq,
    h.importance_eq]

theorem providesLogicalCpuId_eq (h : a.Alike b) :
    a.providesLogicalCpuId = b.providesLogicalCpuId :=
  decide_eq_decide.mpr (h.provides _)

theorem waitsFor_iff (hconsumer : a.Alike b) (hprovider : c.Alike d) :
    a.WaitsFor c ↔ b.WaitsFor d := by
  unfold WaitsFor
  simp only [hprovider.id_eq, hconsumer.dependsOn, hconsumer.needs, hprovider.provides]

end Component.Alike

/-! ## Registries -/

/-- Registries whose components are alike one by one. -/
def Registry.Alike (registry other : Registry) : Prop :=
  List.Forall₂ Component.Alike registry.components other.components

namespace Registry

variable {registry other : Registry}

theorem Alike.symm (h : registry.Alike other) : other.Alike registry :=
  (h.imp fun _ _ hab => hab.symm).flip

theorem Alike.exists_alike (h : registry.Alike other) {component : Component}
    (hmem : component ∈ registry.components) :
    ∃ counterpart ∈ other.components, component.Alike counterpart :=
  exists_rel_of_mem h hmem

theorem Alike.find?_rel (h : registry.Alike other) (id : ComponentId) :
    Option.Rel Component.Alike (registry.find? id) (other.find? id) := by
  cases hfound : registry.find? id with
  | some component =>
    obtain ⟨hmem, hid⟩ := find?_eq_some_iff.mp hfound
    obtain ⟨counterpart, hother, halike⟩ := h.exists_alike hmem
    rw [find?_eq_some_iff.mpr ⟨hother, halike.id_eq.symm.trans hid⟩]
    exact .some halike
  | none =>
    have habsent : other.find? id = none := by
      rw [find?_eq_none_iff]
      intro counterpart hother hid
      obtain ⟨component, hmem, halike⟩ := h.symm.exists_alike hother
      exact find?_eq_none_iff.mp hfound component hmem (halike.id_eq.symm.trans hid)
    rw [habsent]
    exact .none

/-! ### Scheduling -/

theorem leadsIn_of_alike (h : registry.Alike other) {phase : Phase} {p c : Component}
    (hleads : registry.LeadsIn phase p c) :
    ∃ q d, other.LeadsIn phase q d ∧ p.Alike q ∧ c.Alike d := by
  obtain ⟨hp, hc, hwaits⟩ := hleads
  rw [mem_inPhase] at hp hc
  obtain ⟨q, hq, hpq⟩ := h.exists_alike hp.1
  obtain ⟨d, hd, hcd⟩ := h.exists_alike hc.1
  exact ⟨q, d, ⟨mem_inPhase.mpr ⟨hq, hpq.phase_eq.symm.trans hp.2⟩,
    mem_inPhase.mpr ⟨hd, hcd.phase_eq.symm.trans hc.2⟩, (hcd.waitsFor_iff hpq).mp hwaits⟩,
    hpq, hcd⟩

theorem precedes_of_alike (h : registry.Alike other) {phase : Phase} {a b : ComponentId}
    (hprecedes : (registry.graphOf phase).Precedes a b) :
    (other.graphOf phase).Precedes a b := by
  obtain ⟨p, c, hleads, rfl, rfl⟩ := precedes_graphOf_iff.mp hprecedes
  obtain ⟨q, d, hleads', hpq, hcd⟩ := leadsIn_of_alike h hleads
  exact precedes_graphOf_iff.mpr ⟨q, d, hleads', hpq.id_eq.symm, hcd.id_eq.symm⟩

theorem precedes_graphOf_eq_of_alike (h : registry.Alike other) (phase : Phase) :
    (registry.graphOf phase).Precedes = (other.graphOf phase).Precedes := by
  funext a b
  exact propext ⟨precedes_of_alike h, precedes_of_alike h.symm⟩

theorem Schedulable.of_alike (h : registry.Alike other) (hsound : registry.Schedulable) :
    other.Schedulable where
  -- Each rule is carried over to the counterparts, and its witnesses back from them.
  numbered_once := by
    intro q hq q' hq' hprovides hprovides'
    obtain ⟨p, hp, hqp⟩ := h.symm.exists_alike hq
    obtain ⟨p', hp', hqp'⟩ := h.symm.exists_alike hq'
    have hsame : p = p' := hsound.numbered_once p hp p' hp' ((hqp.provides _).mp hprovides)
      ((hqp'.provides _).mp hprovides')
    apply eq_of_id_eq hq hq'
    rw [hqp.id_eq, hsame, hqp'.id_eq]
  provided_in_time := by
    intro q hq d hd x hprovides hneeds
    obtain ⟨p, hp, hqp⟩ := h.symm.exists_alike hq
    obtain ⟨c, hc, hdc⟩ := h.symm.exists_alike hd
    rw [hqp.phase_eq, hdc.phase_eq]
    rw [hqp.provides] at hprovides
    rw [hdc.needs, hdc.apNeeds] at hneeds
    exact hsound.provided_in_time p hp c hc x hprovides hneeds
  named_in_phase := by
    intro d hd id hnames
    obtain ⟨c, hc, hdc⟩ := h.symm.exists_alike hd
    obtain ⟨p, hp, rfl, hphase⟩ := hsound.named_in_phase c hc id ((hdc.dependsOn id).mp hnames)
    obtain ⟨q, hq, hpq⟩ := h.exists_alike hp
    refine ⟨q, hq, hpq.id_eq.symm, ?_⟩
    rw [← hpq.phase_eq, hphase, hdc.phase_eq]
  required_provided := by
    intro d hd hrequired x hneeds
    obtain ⟨c, hc, hdc⟩ := h.symm.exists_alike hd
    rw [hdc.required_eq] at hrequired
    obtain ⟨p, hp, hprovides⟩ :=
      hsound.required_provided c hc hrequired x ((hdc.needs x).mp hneeds)
    obtain ⟨q, hq, hpq⟩ := h.exists_alike hp
    exact ⟨q, hq, (hpq.provides x).mp hprovides⟩
  ap_initialized := by
    intro d hd x hneeds
    obtain ⟨c, hc, hdc⟩ := h.symm.exists_alike hd
    obtain ⟨p, hp, hprovides, hglobal, hearly⟩ :=
      hsound.ap_initialized c hc x ((hdc.apNeeds x).mp hneeds)
    obtain ⟨q, hq, hpq⟩ := h.exists_alike hp
    rw [hpq.isPerCpu_eq] at hglobal
    rw [hpq.phase_eq] at hearly
    exact ⟨q, hq, (hpq.provides x).mp hprovides, hglobal, hearly⟩
  acyclic := by
    intro phase
    have hacyclic := acyclic_graphOf_iff.mpr (hsound.acyclic phase)
    unfold PhaseGraph.Acyclic at hacyclic
    rw [precedes_graphOf_eq_of_alike h phase] at hacyclic
    exact acyclic_graphOf_iff.mp hacyclic

/-! ### The text -/

theorem planOf_eq_of_alike (h : registry.Alike other) : registry.planOf = other.planOf := by
  have hids : registry.components.map (fun component => (component.id, component.phase)) =
      other.components.map fun component => (component.id, component.phase) :=
    map_eq_map_of_forall₂ (fun _ _ hab => Prod.ext hab.id_eq hab.phase_eq) h
  have hplaced (phase : Phase) : (registry.graphOf phase).finalSorting.placed =
      (other.graphOf phase).finalSorting.placed := by
    apply PhaseGraph.placed_finalSorting_eq (registry.wellFormed_graphOf phase)
      (other.wellFormed_graphOf phase) (nodes_graphOf_eq hids phase)
    rw [precedes_graphOf_eq_of_alike h phase]
  unfold planOf
  simp only [hplaced]

theorem flatten_eq_of_alike (h : registry.Alike other) (plan : Plan) :
    flatten plan registry = flatten plan other := by
  have hentries (id : ComponentId) :
      (registry.find? id).map (fun component =>
        (Entry.ofComponent component, component.providesLogicalCpuId)) =
      (other.find? id).map fun component =>
        (Entry.ofComponent component, component.providesLogicalCpuId) := by
    refine map_eq_map_of_rel (fun a b halike => ?_) (h.find?_rel id)
    rw [halike.ofComponent_eq, halike.providesLogicalCpuId_eq]
  unfold flatten phaseEntries
  simp only [List.map_filterMap, hentries]

theorem textOf_eq_of_alike (h : registry.Alike other) (config : TableConfig) :
    registry.textOf config = other.textOf config := by
  unfold textOf
  rw [planOf_eq_of_alike h, flatten_eq_of_alike h]

end Registry

end BootTable
