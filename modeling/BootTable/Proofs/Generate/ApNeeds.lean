import BootTable.Proofs.Entries.PhaseOrder
import BootTable.Proofs.Generate
import BootTable.Proofs.Registry.Representation

/-!
# BootTable — needs of application processors

What application processors need adds no edge to any graph. That it is there when they start
follows from several stages together: records of components that run once cannot list such needs;
some provider is global and of a phase before the processors start; no provider is of a later phase
than the component; and the entries of a table stand phase after phase.

* **`exists_component_of_load`**: the needs are those that the records list.
* **`providedAlong_of_schedulable`**: what the rules about the registry say in terms of the table.
* **`apNeeds_of_generate`**: the whole way from the sources to their text.
-/

namespace BootTable

/-! ## From the records to the registry -/

/-- The component of an enabled record needs for application processors what the record lists. -/
theorem exists_component_of_load {sources : List Source} {registry : Registry}
    (h : (Registry.load sources).result = .ok registry) {definition : Definition}
    (hmem : definition ∈ definitionsOf sources) {table : Toml.Table} {record : Record}
    (htable : definition.enabledTable? = .ok (some table))
    (hrecord : Record.ofTable table = .ok record) :
    ∃ component ∈ registry.components, component.id = definition.id ∧
      ∀ capability, capability ∈ component.apNeeds ↔
        capability.name ∈ record.apNeeds.getD [] := by
  have henables := Definition.enabledTable?_eq_ok_some_iff_enables.mp htable
  obtain ⟨component, hcomponent, hnormal⟩ :=
    Registry.exists_component_of_hasRecord h hmem ⟨table, henables, hrecord⟩
  exact ⟨component, hcomponent, (Record.represents_of_normalize hnormal).id_eq,
    fun capability => Record.mem_apNeeds_of_normalize hnormal⟩

/-! ## From the registry to the table -/

/-- How the providers of a capability stand in a table, if application processors need it for a
component. -/
structure ProvidedAlong (registry : Registry) (entries : List Entry) (component : Component)
    (capability : Capability) : Prop where
  perCpu : component.isPerCpu = true
  /-- One that runs once comes before the marker of the start of application processors, and
  before all components of that phase. -/
  initialized : ∃ provider ∈ registry.components,
    capability ∈ provider.provides ∧ provider.isPerCpu = false ∧
    (∃ entry ∈ entries, entry.StandsFor provider) ∧
    Before entries provider.kind (.marker .smpBringup) ∧
    ∀ other ∈ registry.components, other.phase = .smpBringup →
      Before entries provider.kind other.kind
  /-- None comes after the marker of the phase that follows that of the component. -/
  inTime : ∀ provider ∈ registry.components, capability ∈ provider.provides →
    provider.phase ≤ component.phase ∧
    ∀ next : Phase, next.rank = component.phase.rank + 1 →
      Before entries provider.kind (.marker next)

theorem providedAlong_of_schedulable {registry : Registry} (h : registry.Schedulable)
    {component : Component} (hmem : component ∈ registry.components) {capability : Capability}
    (hneeds : capability ∈ component.apNeeds) :
    ProvidedAlong registry (flatten registry.planOf registry) component capability where
  perCpu := Component.isPerCpu_of_mem_apNeeds hneeds
  initialized := by
    obtain ⟨provider, hprovider, hprovides, hglobal, hearly⟩ :=
      h.ap_initialized component hmem capability hneeds
    refine ⟨provider, hprovider, hprovides, hglobal, exists_standsFor h hprovider,
      before_of_phase_lt h (phase?_kind hprovider) rfl hearly, ?_⟩
    intro other hother hphase
    rw [← hphase] at hearly
    exact before_of_phase_lt h (phase?_kind hprovider) (phase?_kind hother) hearly
  inTime := by
    intro provider hprovider hprovides
    have hle : provider.phase.rank ≤ component.phase.rank := by
      have hnot := h.provided_in_time provider hprovider component hmem capability hprovides
        (.inr hneeds)
      rw [Phase.lt_iff_rank_lt] at hnot
      omega
    refine ⟨hle, fun next hnext => ?_⟩
    have hlt : provider.phase < next := by
      rw [Phase.lt_iff_rank_lt]
      omega
    exact before_of_phase_lt h (phase?_kind hprovider) rfl hlt

/-- What application processors need is there in time, in the table of any sources that have one.
Its components are those of the registry. Each needs for application processors what its record
lists for them; and if that is anything, it runs on every processor, and the providers stand before
the markers that they have to precede. -/
theorem apNeeds_of_generate {sources : List Source} {config : TableConfig} {text : String}
    (h : (generate sources config).result = .ok text) :
    ∃ registry plan, (Registry.load sources).result = .ok registry ∧
      (schedule registry).result = .ok plan ∧
      text = TableText.render (flatten plan registry) config ∧
      (∀ phase, ∃ entry ∈ flatten plan registry, entry.IsMarkerOf phase) ∧
      (∀ entry ∈ flatten plan registry, entry.isMarker = false →
        ∃ component ∈ registry.components, entry.StandsFor component) ∧
      (∀ definition ∈ definitionsOf sources, ∀ table record,
        definition.enabledTable? = .ok (some table) → Record.ofTable table = .ok record →
        ∃ component ∈ registry.components, component.id = definition.id ∧
          ∀ capability, capability ∈ component.apNeeds ↔
            capability.name ∈ record.apNeeds.getD []) ∧
      ∀ component ∈ registry.components,
        (∃ entry ∈ flatten plan registry, entry.StandsFor component) ∧
        ∀ capability ∈ component.apNeeds,
          ProvidedAlong registry (flatten plan registry) component capability := by
  obtain ⟨registry, hload, hsound, htext⟩ := generate_eq_ok_iff.mp h
  refine ⟨registry, registry.planOf, hload, schedule_eq_ok_iff.mpr ⟨hsound, rfl⟩, htext,
    exists_isMarkerOf registry, ?_, ?_, ?_⟩
  · intro entry hentry hmarker
    exact exists_component_of_mem_flatten hentry hmarker
  · intro definition hdefinition table record htable hrecord
    exact exists_component_of_load hload hdefinition htable hrecord
  · intro component hmem
    exact ⟨exists_standsFor hsound hmem, fun capability => providedAlong_of_schedulable hsound hmem⟩

theorem apNeeds_of_generate_heap :
    let sources : List Source := [.ofDrafts "boot.toml" [
      (Draft.perCpu "stacks" "core_devices").apNeeds ["heap"],
      (Draft.global "pages" "memory_management").provides ["heap"],
      (Draft.perCpu "pools" "core_devices").provides ["heap"]]]
    ∃ text registry plan, (generate sources .default).result = .ok text ∧
      (Registry.load sources).result = .ok registry ∧ (schedule registry).result = .ok plan ∧
      ∃ component ∈ registry.components, component.id = ⟨"stacks"⟩ ∧
        ProvidedAlong registry (flatten plan registry) component ⟨"heap"⟩ := by
  intro sources
  let table : Toml.Table := ((Draft.perCpu "stacks" "core_devices").apNeeds ["heap"]).table
  let definition : Definition := ⟨⟨"stacks"⟩, "boot.toml", .table table⟩
  have hdefinition : definition ∈ definitionsOf sources := List.mem_cons_self
  have htable : definition.enabledTable? = .ok (some table) := rfl
  let record : Record := {
    name := "stacks", required := false, perCpu := true, phase := "core_devices"
    routine := some "init::stacks", bootstrapRoutine := none, apRoutine := none
    provides := [], dependsOn := [], needs := [], apNeeds := some ["heap"]
    importance := none, disabled := false }
  have hrecord : Record.ofTable table = .ok record := by decide +kernel
  obtain ⟨text, htext⟩ : ∃ text, (generate sources .default).result = .ok text :=
    isOk_iff.mp (by decide +kernel)
  obtain ⟨registry, plan, hload, hplan, -, -, -, hlisted, hprovided⟩ := apNeeds_of_generate htext
  obtain ⟨component, hmem, hid, hneeds⟩ :=
    hlisted definition hdefinition table record htable hrecord
  have hheap : ⟨"heap"⟩ ∈ component.apNeeds := (hneeds ⟨"heap"⟩).mpr List.mem_cons_self
  exact ⟨text, registry, plan, htext, hload, hplan, component, hmem, hid,
    (hprovided component hmem).2 _ hheap⟩

end BootTable
