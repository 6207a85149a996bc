import BootTable.Proofs.Generate
import BootTable.Proofs.PhaseGraph.Restriction
import BootTable.Record.Draft

/-!
# BootTable — sources in the other order

Two sources are independent if neither mentions the other. In which order they are merged decides
neither whether they have a plan nor how the components of each stand among themselves; but where
both populate a phase, ties go to the source that is merged first, and the plan tells.

* **`Merges.filter_placed_graphOf`**: in a phase, each of two independent lists of components is
  ordered as if it were alone, whichever comes first.
* **`Merges.exists_head_placed`**: what stands first in a phase is of the list that comes first, if
  that list populates the phase.
* **`planOf_eq_iff_apart`**: so the plans of both orders are the same only if no phase is shared.
* **`generate_swap`**: the same of sources, with their texts.
-/

namespace BootTable

/-! ## Components that do not mention each other -/

/-- A component names another one, or one of its routines needs what the other one provides. -/
def Component.Mentions (consumer provider : Component) : Prop :=
  provider.id ∈ consumer.dependsOn ∨ ∃ x ∈ consumer.consumed, x ∈ provider.provides

instance (consumer provider : Component) : Decidable (consumer.Mentions provider) :=
  inferInstanceAs (Decidable (_ ∨ _))

theorem Component.Mentions.of_waitsFor {consumer provider : Component}
    (h : consumer.WaitsFor provider) : consumer.Mentions provider := by
  rcases h with hnamed | ⟨x, hneeds, hprovides⟩
  · exact .inl hnamed
  · exact .inr ⟨x, mem_consumed.mpr (.inl hneeds), hprovides⟩

/-- Two lists of components share no id, and no component of one mentions one of the other. -/
def Unrelated (as bs : List Component) : Prop :=
  ∀ a ∈ as, ∀ b ∈ bs, a.id ≠ b.id ∧ ¬a.Mentions b ∧ ¬b.Mentions a

instance (as bs : List Component) : Decidable (Unrelated as bs) :=
  inferInstanceAs (Decidable (∀ a ∈ as, ∀ b ∈ bs, _))

theorem Unrelated.symm {as bs : List Component} (h : Unrelated as bs) : Unrelated bs as :=
  fun b hb a ha => ⟨(h a ha b hb).1.symm, (h a ha b hb).2.symm⟩

/-- No phase holds components of both lists. -/
def Apart (as bs : List Component) : Prop :=
  ∀ a ∈ as, ∀ b ∈ bs, a.phase ≠ b.phase

instance (as bs : List Component) : Decidable (Apart as bs) :=
  inferInstanceAs (Decidable (∀ a ∈ as, ∀ b ∈ bs, a.phase ≠ b.phase))

/-- The components of a registry are those of two unrelated lists, one list after the other. -/
structure Registry.Merges (registry : Registry) (as bs : List Component) : Prop where
  /-- Either list may come first. -/
  components_eq : registry.components = as ++ bs ∨ registry.components = bs ++ as
  /-- The lists do not mention each other. -/
  unrelated : Unrelated as bs

namespace Registry.Merges

variable {registry : Registry} {as bs : List Component} (h : registry.Merges as bs)

include h

theorem mem_components {component : Component} :
    component ∈ registry.components ↔ component ∈ as ∨ component ∈ bs := by
  rcases h.components_eq with heq | heq
  · rw [heq, List.mem_append]
  · rw [heq, List.mem_append, or_comm]

theorem mem_left {component : Component} (hmem : component ∈ registry.components)
    (hid : component.id ∈ as.map Component.id) : component ∈ as := by
  obtain ⟨a, ha, hsame⟩ := List.mem_map.mp hid
  rw [← eq_of_id_eq (h.mem_components.mpr (.inl ha)) hmem hsame]
  exact ha

/-- The members of a phase that come from one of the lists are those of the phase in that list, in
its order, whichever list comes first. -/
theorem filter_inPhase (phase : Phase) :
    ((registry.inPhase phase).filter fun component => component.id ∈ as.map Component.id) =
      as.filter fun component => component.phase = phase := by
  have hown : ((as.filter fun component => component.phase = phase).filter fun component =>
      component.id ∈ as.map Component.id) = as.filter fun component => component.phase = phase := by
    rw [List.filter_eq_self]
    intro component hmem
    exact decide_eq_true (List.mem_map_of_mem (List.mem_of_mem_filter hmem))
  have hother : ((bs.filter fun component => component.phase = phase).filter fun component =>
      component.id ∈ as.map Component.id) = [] := by
    rw [List.filter_eq_nil_iff]
    intro b hb hmem
    obtain ⟨a, ha, hid⟩ := List.mem_map.mp (of_decide_eq_true hmem)
    exact (h.unrelated a ha b (List.mem_of_mem_filter hb)).1 hid
  unfold inPhase
  rcases h.components_eq with heq | heq
  · rw [heq, List.filter_append, List.filter_append, hown, hother, List.append_nil]
  · rw [heq, List.filter_append, List.filter_append, hown, hother, List.nil_append]

/-- In a phase, the components of one list are a part of the graph that waits for nothing
outside. -/
theorem restricts_graphOf (phase : Phase) :
    PhaseGraph.Restricts (fun id => id ∈ as.map Component.id)
      (PhaseGraph.ofMembers phase (as.filter fun component => component.phase = phase))
      (registry.graphOf phase) := by
  rw [← h.filter_inPhase phase]
  apply PhaseGraph.restricts_ofMembers
  intro p hp c hc hwaits hkeep
  have hleft : c ∈ as := h.mem_left (mem_inPhase.mp hc).1 (of_decide_eq_true hkeep)
  rcases h.mem_components.mp (mem_inPhase.mp hp).1 with hin | hout
  · exact decide_eq_true (List.mem_map_of_mem hin)
  · exact absurd (Component.Mentions.of_waitsFor hwaits) (h.unrelated c hleft p hout).2.1

theorem nodup_map_id_left (phase : Phase) :
    ((as.filter fun component => component.phase = phase).map Component.id).Nodup := by
  rw [← h.filter_inPhase phase]
  exact (registry.nodup_map_id_inPhase phase).sublist (List.filter_sublist.map _)

/-- The order of one list in a phase is that of the list alone. -/
theorem filter_placed_graphOf (phase : Phase) :
    ((registry.graphOf phase).finalSorting.placed.filter fun id => id ∈ as.map Component.id) =
      (PhaseGraph.ofMembers phase
        (as.filter fun component => component.phase = phase)).finalSorting.placed :=
  PhaseGraph.filter_placed_finalSorting
    (PhaseGraph.wellFormed_ofMembers phase (h.nodup_map_id_left phase))
    (registry.wellFormed_graphOf phase) (h.restricts_graphOf phase)

/-- In a phase that it populates, the list that comes first has a component that waits for
nothing, and the first of these is placed first. -/
theorem exists_head_placed (hfirst : registry.components = as ++ bs) (hsound : registry.Schedulable)
    {component : Component} (hmem : component ∈ as) :
    ∃ id ∈ as.map Component.id,
      (registry.graphOf component.phase).finalSorting.placed.head? = some id := by
  let graph := registry.graphOf component.phase
  let ids := (as.filter fun other => other.phase = component.phase).map Component.id
  have hnodes : graph.nodes =
      ids ++ (bs.filter fun other => other.phase = component.phase).map Component.id := by
    show (registry.inPhase component.phase).map Component.id = _
    unfold inPhase
    rw [hfirst, List.filter_append, List.map_append]
  have hids : ids.Sublist (as.map Component.id) := List.filter_sublist.map _
  have hclosed : ∀ id ∈ ids, ∀ provider, graph.Precedes provider id → provider ∈ ids := by
    intro id hid provider hedge
    have hinside := ((h.restricts_graphOf component.phase).precedes_iff provider id).mpr
      ⟨decide_eq_true (hids.subset hid), hedge⟩
    exact (PhaseGraph.wellFormed_ofMembers component.phase
      (h.nodup_map_id_left component.phase)).provider_mem hinside
  have hentry := PhaseGraph.filter_entry_ne_nil
    (acyclic_graphOf_iff.mpr (hsound.acyclic component.phase)) hclosed
    (List.mem_map_of_mem (List.mem_filter.mpr ⟨hmem, decide_eq_true rfl⟩))
  obtain ⟨first, others, hfound⟩ := List.exists_cons_of_ne_nil hentry
  have hin : first ∈ ids :=
    List.mem_of_mem_filter (hfound ▸ List.mem_cons_self)
  refine ⟨first, hids.subset hin, ?_⟩
  apply PhaseGraph.head?_placed_finalSorting (registry.wellFormed_graphOf component.phase)
  show (graph.nodes.filter fun id => (graph.prerequisites id).isEmpty).head? = some first
  rw [hnodes, List.filter_append, hfound]
  rfl

end Registry.Merges

/-! ## Both orders -/

section

variable {as bs : List Component} {registry other : Registry} (hunrelated : Unrelated as bs)
  (hregistry : registry.components = as ++ bs) (hother : other.components = bs ++ as)

include hunrelated hregistry hother

theorem filter_componentsOf_planOf_eq (phase : Phase) :
    ((other.planOf.componentsOf phase).filter fun id => id ∈ as.map Component.id) =
      (registry.planOf.componentsOf phase).filter fun id => id ∈ as.map Component.id := by
  have hmerges : registry.Merges as bs := ⟨.inl hregistry, hunrelated⟩
  have hswapped : other.Merges as bs := ⟨.inr hother, hunrelated⟩
  rw [Registry.componentsOf_planOf, Registry.componentsOf_planOf,
    hmerges.filter_placed_graphOf, hswapped.filter_placed_graphOf]

omit hunrelated in
/-- Where no phase holds components of both lists, either order is the same phase by phase. -/
theorem inPhase_eq_of_apart (hapart : Apart as bs) (phase : Phase) :
    registry.inPhase phase = other.inPhase phase := by
  have hone : (as.filter fun a => a.phase = phase) = [] ∨
      (bs.filter fun b => b.phase = phase) = [] := by
    by_contra hboth
    rw [not_or] at hboth
    obtain ⟨a, ha⟩ := List.exists_mem_of_ne_nil _ hboth.1
    obtain ⟨b, hb⟩ := List.exists_mem_of_ne_nil _ hboth.2
    rw [List.mem_filter, decide_eq_true_eq] at ha hb
    exact hapart a ha.1 b hb.1 (ha.2.trans hb.2.symm)
  unfold Registry.inPhase
  rw [hregistry, hother, List.filter_append, List.filter_append]
  rcases hone with hnone | hnone
  · rw [hnone, List.nil_append, List.append_nil]
  · rw [hnone, List.nil_append, List.append_nil]

/-- Where a phase holds components of both lists, what stands first in it tells which list came
first. -/
theorem planOf_eq_iff_apart (hsound : registry.Schedulable) (hswapped : other.Schedulable) :
    other.planOf = registry.planOf ↔ Apart as bs := by
  constructor
  · intro hplans a ha b hb hphase
    have hmerges : registry.Merges as bs := ⟨.inl hregistry, hunrelated⟩
    have hmerges' : other.Merges bs as := ⟨.inl hother, hunrelated.symm⟩
    -- The same component would stand first in both plans, and would be of both lists.
    obtain ⟨first, hfirst, hhead⟩ := hmerges.exists_head_placed hregistry hsound ha
    obtain ⟨second, hsecond, hhead'⟩ := hmerges'.exists_head_placed hother hswapped hb
    rw [← Registry.componentsOf_planOf] at hhead hhead'
    rw [hplans, ← hphase, hhead, Option.some.injEq] at hhead'
    subst hhead'
    obtain ⟨a', ha', hid⟩ := List.mem_map.mp hfirst
    obtain ⟨b', hb', hid'⟩ := List.mem_map.mp hsecond
    exact (hunrelated a' ha' b' hb').1 (hid.trans hid'.symm)
  · intro hapart
    exact (Registry.planOf_eq_of_inPhase_eq (inPhase_eq_of_apart hregistry hother hapart)).symm

end

/-- Two unrelated sources can be merged in either order. In each phase the components of each
source keep their order. The plans are the same exactly if no phase holds components of both
sources, and then the texts are the same. -/
theorem generate_swap {first second : Source} {config : TableConfig} {text : String}
    (hunrelated : Unrelated first.components second.components)
    (h : (generate [first, second] config).result = .ok text) :
    ∃ registry plan swapped swappedPlan swappedText,
      (Registry.load [first, second]).result = .ok registry ∧
      (schedule registry).result = .ok plan ∧
      (Registry.load [second, first]).result = .ok swapped ∧
      (schedule swapped).result = .ok swappedPlan ∧
      (generate [second, first] config).result = .ok swappedText ∧
      (∀ source ∈ [first, second], ∀ phase,
        ((swappedPlan.componentsOf phase).filter fun id =>
          id ∈ source.components.map Component.id) =
          (plan.componentsOf phase).filter fun id =>
            id ∈ source.components.map Component.id) ∧
      (swappedPlan = plan ↔ Apart first.components second.components) ∧
      (Apart first.components second.components → swappedText = text) := by
  obtain ⟨registry, hload, hsound, htext⟩ := generate_eq_ok_iff.mp h
  obtain ⟨swapped, hswap⟩ := exists_load_of_perm (List.Perm.swap second first []) hload
  have hregistry : registry.components = first.components ++ second.components := by
    rw [components_of_load hload]
    simp
  have hswapped : swapped.components = second.components ++ first.components := by
    rw [components_of_load hswap]
    simp
  have hsame (component : Component) :
      component ∈ registry.components ↔ component ∈ swapped.components := by
    rw [hregistry, hswapped, List.mem_append, List.mem_append, or_comm]
  have hsound' := hsound.of_mem_iff hsame
  refine ⟨registry, registry.planOf, swapped, swapped.planOf, swapped.textOf config, hload,
    schedule_eq_ok_iff.mpr ⟨hsound, rfl⟩, hswap, schedule_eq_ok_iff.mpr ⟨hsound', rfl⟩,
    generate_eq_ok_iff.mpr ⟨swapped, hswap, hsound', rfl⟩, ?_, ?_, ?_⟩
  · intro source hsource phase
    rcases List.mem_pair.mp hsource with rfl | rfl
    · exact filter_componentsOf_planOf_eq hunrelated hregistry hswapped phase
    · exact (filter_componentsOf_planOf_eq hunrelated.symm hswapped hregistry phase).symm
  · exact planOf_eq_iff_apart hunrelated hregistry hswapped hsound hsound'
  · intro hapart
    rw [htext]
    exact (Registry.textOf_eq_of_inPhase_eq (inPhase_eq_of_apart hregistry hswapped hapart)
      config).symm

/-- The phase of two sources with two components each starts with the source that is merged first,
and `disk` waits for `bus`, `screen` for `timer` in either order. The third source shares no phase
with the first one. -/
theorem generate_swap_hardware_console :
    let hardware : Source := .ofDrafts "hardware.toml" [
      (Draft.global "disk" "core_devices").dependsOn ["bus"], .global "bus" "core_devices"]
    let console : Source := .ofDrafts "console.toml" [
      .global "timer" "core_devices", (Draft.global "screen" "core_devices").dependsOn ["timer"]]
    let memory : Source := .ofDrafts "memory.toml" [
      .global "pages" "memory_management", .global "pools" "memory_management"]
    (∃ registry plan swapped swappedPlan,
      (Registry.load [hardware, console]).result = .ok registry ∧
      (schedule registry).result = .ok plan ∧
      (Registry.load [console, hardware]).result = .ok swapped ∧
      (schedule swapped).result = .ok swappedPlan ∧
      plan.componentsOf .coreDevices = [⟨"bus"⟩, ⟨"timer"⟩, ⟨"disk"⟩, ⟨"screen"⟩] ∧
      swappedPlan.componentsOf .coreDevices = [⟨"timer"⟩, ⟨"bus"⟩, ⟨"screen"⟩, ⟨"disk"⟩] ∧
      ((swappedPlan.componentsOf .coreDevices).filter fun id =>
        id ∈ hardware.components.map Component.id) = [⟨"bus"⟩, ⟨"disk"⟩] ∧
      ((swappedPlan.componentsOf .coreDevices).filter fun id =>
        id ∈ console.components.map Component.id) = [⟨"timer"⟩, ⟨"screen"⟩] ∧
      swappedPlan ≠ plan) ∧
    ∃ text, (generate [memory, hardware] .default).result = .ok text ∧
      (generate [hardware, memory] .default).result = .ok text := by
  intro hardware console memory
  refine ⟨?shared, ?apart⟩
  case shared =>
    have hunrelated : Unrelated hardware.components console.components := by decide +kernel
    have hshared : ¬Apart hardware.components console.components := by decide +kernel
    have horder : ((Registry.load [hardware, console]).result.toOption.bind fun registry =>
        (schedule registry).result.toOption.map fun plan => plan.componentsOf .coreDevices) =
          some [⟨"bus"⟩, ⟨"timer"⟩, ⟨"disk"⟩, ⟨"screen"⟩] := by decide +kernel
    have horder' : ((Registry.load [console, hardware]).result.toOption.bind fun registry =>
        (schedule registry).result.toOption.map fun plan => plan.componentsOf .coreDevices) =
          some [⟨"timer"⟩, ⟨"bus"⟩, ⟨"screen"⟩, ⟨"disk"⟩] := by decide +kernel
    obtain ⟨text, htext⟩ : ∃ text, (generate [hardware, console] .default).result = .ok text :=
      isOk_iff.mp (by decide +kernel)
    obtain ⟨registry, plan, swapped, swappedPlan, -, hload, hplan, hload', hplan', -, hkept,
      hsame, -⟩ := generate_swap hunrelated htext
    have hplaced : plan.componentsOf .coreDevices = [⟨"bus"⟩, ⟨"timer"⟩, ⟨"disk"⟩, ⟨"screen"⟩] := by
      simpa [hload, hplan, Except.toOption] using horder
    have hplaced' : swappedPlan.componentsOf .coreDevices =
        [⟨"timer"⟩, ⟨"bus"⟩, ⟨"screen"⟩, ⟨"disk"⟩] := by
      simpa [hload', hplan', Except.toOption] using horder'
    refine ⟨registry, plan, swapped, swappedPlan, hload, hplan, hload', hplan', hplaced, hplaced',
      ?_, ?_, mt hsame.mp hshared⟩
    · rw [hkept hardware List.mem_cons_self .coreDevices, hplaced]
      decide +kernel
    · rw [hkept console (List.mem_cons_of_mem _ List.mem_cons_self) .coreDevices, hplaced]
      decide +kernel
  case apart =>
    have hunrelated : Unrelated memory.components hardware.components := by decide +kernel
    have hapart : Apart memory.components hardware.components := by decide +kernel
    obtain ⟨text, htext⟩ : ∃ text, (generate [memory, hardware] .default).result = .ok text :=
      isOk_iff.mp (by decide +kernel)
    obtain ⟨-, -, -, -, swappedText, -, -, -, -, hswapped, -, -, hequal⟩ :=
      generate_swap hunrelated htext
    rw [hequal hapart] at hswapped
    exact ⟨text, htext, hswapped⟩

/-- Where unrelated sources share a phase, their order can be told from the text. -/
theorem not_generate_swap_eq : ¬∀ (first second : Source) (config : TableConfig) (text : String),
    Unrelated first.components second.components →
      (generate [first, second] config).result = .ok text →
        (generate [second, first] config).result = .ok text := by
  intro hclaim
  let bus : Source := .plain "bus.toml" [("bus", .coreDevices)]
  let timer : Source := .plain "timer.toml" [("timer", .coreDevices)]
  have hunrelated : Unrelated bus.components timer.components := by decide +kernel
  obtain ⟨text, htext⟩ : ∃ text, (generate [bus, timer] .default).result = .ok text :=
    isOk_iff.mp (by decide +kernel)
  have hswapped := hclaim bus timer .default text hunrelated htext
  rw [← hswapped] at htext
  revert htext
  decide +kernel

end BootTable
