import BootTable.Proofs.Record
import BootTable.Proofs.Registry.Loadable
import BootTable.Record.Draft

/-!
# BootTable — how a registry represents its records

Later stages rely on what loading has made of the records and do not look at them again: lists
without repetitions, routines that follow the grammar, nothing that only application processors
need in a component that runs once, and positions that tell components apart. That every component
has an origin lies in the form of a registry; `Registry.Maps` shows it of two maps that are filled
side by side.

* **`represents_of_normalize`**: what a component takes over from its record.
* **`exists_hasRecord_of_load`**, **`exists_component_of_hasRecord`**: the components of a registry
  are those of the enabled records.
* **`mem_positionsInPhase_iff`**: a phase lists the positions of its members and nothing else.
* **`perm_range_positions`**: each position is that of a component of exactly one phase.
* **`represents_of_load`**: all of it, of every registry that is loaded.
-/

namespace BootTable

/-! ## Components -/

/-- A list is another one without its repetitions: what is repeated stands at its first place. -/
structure Reduces {α : Type} [BEq α] (raw reduced : List α) : Prop where
  nodup : reduced.Nodup
  eq_eraseDups : reduced = raw.eraseDups

theorem reduces_ofList {α : Type} [DecidableEq α] (raw : List α) :
    Reduces raw (DistinctList.ofList raw).toList where
  nodup := (DistinctList.ofList raw).nodup
  eq_eraseDups := firstOccurrences_eq_eraseDups raw

/-- What a component takes over from the record that it is made of. -/
structure Component.Represents (component : Component) (id : ComponentId) (record : Record) :
    Prop where
  id_eq : component.id = id
  isPerCpu_eq : component.isPerCpu = record.perCpu
  provides : Reduces (record.provides.map Capability.mk) component.provides.toList
  dependsOn : Reduces (record.dependsOn.map ComponentId.mk) component.dependsOn.toList
  needs : Reduces (record.needs.map Capability.mk) component.needs.toList
  apNeeds : Reduces ((record.apNeeds.getD []).map Capability.mk) component.apNeeds.toList
  /-- The routines are what the references of the record are read as. -/
  routines : ∃ bootstrap ap, record.routineReferences = .ok (bootstrap, ap) ∧
    Routine.ofText? bootstrap = some component.execution.bootstrap ∧
    (record.perCpu = true → Routine.ofText? ap = some component.execution.ap)
  global : record.perCpu = false →
    component.apNeeds.toList = [] ∧ component.execution.bootstrap = component.execution.ap
  /-- One routine for both kinds of processor serves both. -/
  shared : ∀ reference, record.routine = some reference →
    component.execution.bootstrap.text = reference ∧
      component.execution.bootstrap = component.execution.ap

namespace Record

variable {record : Record} {id : ComponentId} {component : Component}

/-- The one routine of a record stands for the routines of both kinds of processor. -/
theorem eq_of_routineReferences {bootstrap ap reference : String}
    (h : record.routineReferences = .ok (bootstrap, ap))
    (hroutine : record.routine = some reference) :
    bootstrap = reference ∧ ap = reference := by
  rcases routineReferences_eq_ok_iff.mp h with ⟨hown, -, -, rfl⟩ | ⟨hnone, -⟩
  · cases hown.symm.trans hroutine
    exact ⟨rfl, rfl⟩
  · cases hnone.symm.trans hroutine

theorem represents_of_normalize (h : record.normalize id = .ok component) :
    component.Represents id record := by
  obtain ⟨bootstrap, ap, phase, importance, execution, hreferences, -, -, hlisted, hexecution,
    rfl⟩ := normalize_eq_ok_iff.mp h
  obtain ⟨routine, hroutine, hcases⟩ := executionOf_eq_ok_iff.mp hexecution
  have hbootstrap := routineOf_eq_ok_iff.mp hroutine
  -- Both kinds of component have the lists of the record and the routine that was read first.
  rcases hcases with ⟨hperCpu, apRoutine, hap, rfl⟩ | ⟨hglobal, rfl⟩
  · have hap := routineOf_eq_ok_iff.mp hap
    exact {
      id_eq := rfl
      isPerCpu_eq := hperCpu.symm
      provides := reduces_ofList _
      dependsOn := reduces_ofList _
      needs := reduces_ofList _
      apNeeds := reduces_ofList _
      routines := ⟨bootstrap, ap, hreferences, hbootstrap, fun _ => hap⟩
      global := by
        intro hglobal
        cases hperCpu.symm.trans hglobal
      shared := by
        intro reference hshared
        obtain ⟨rfl, rfl⟩ := eq_of_routineReferences hreferences hshared
        exact ⟨Routine.ofText?_eq_some_iff.mp hbootstrap,
          Option.some.inj (hbootstrap.symm.trans hap)⟩ }
  · have hnone := hlisted hglobal
    exact {
      id_eq := rfl
      isPerCpu_eq := hglobal.symm
      provides := reduces_ofList _
      dependsOn := reduces_ofList _
      needs := reduces_ofList _
      apNeeds := by
        rw [hnone]
        exact reduces_ofList []
      routines := by
        refine ⟨bootstrap, ap, hreferences, hbootstrap, fun hperCpu => ?_⟩
        cases hglobal.symm.trans hperCpu
      global := fun _ => ⟨rfl, rfl⟩
      shared := by
        intro reference hshared
        obtain ⟨rfl, -⟩ := eq_of_routineReferences hreferences hshared
        exact ⟨Routine.ofText?_eq_some_iff.mp hbootstrap, rfl⟩ }

end Record

/-! ## Records of definitions -/

/-- The record is enabled and can be read. -/
def Definition.HasRecord (definition : Definition) (record : Record) : Prop :=
  ∃ table, definition.Enables table ∧ Record.ofTable table = .ok record

theorem Definition.describes_iff {definition : Definition} {component : Component} :
    definition.Describes component ↔
      ∃ record, definition.HasRecord record ∧ record.normalize definition.id = .ok component := by
  unfold Describes HasRecord
  constructor
  · rintro ⟨table, record, henables, hrecord, hnormal⟩
    exact ⟨record, ⟨table, henables, hrecord⟩, hnormal⟩
  · rintro ⟨record, ⟨table, henables, hrecord⟩, hnormal⟩
    exact ⟨table, record, henables, hrecord, hnormal⟩

theorem Definition.HasRecord.eq {definition : Definition} {record other : Record}
    (h : definition.HasRecord record) (hother : definition.HasRecord other) : record = other := by
  obtain ⟨table, henables, hrecord⟩ := h
  obtain ⟨table', henables', hrecord'⟩ := hother
  cases henables.1.symm.trans henables'.1
  cases hrecord.symm.trans hrecord'
  rfl

namespace Registry

variable {registry : Registry} {sources : List Source}

/-- Each component of a loaded registry has the record of a definition. -/
theorem exists_hasRecord_of_load (hload : (Registry.load sources).result = .ok registry)
    {component : Component} (hmem : component ∈ registry.components) :
    ∃ definition ∈ definitionsOf sources, ∃ record, definition.HasRecord record ∧
      record.normalize definition.id = .ok component := by
  have hholds := (load_eq_ok_iff_holds.mp hload).2
  obtain ⟨definition, hdefinition, -, hdescribes⟩ :=
    (hholds.find? _ _).mp (find?_eq_some_iff.mpr ⟨hmem, rfl⟩)
  exact ⟨definition, (List.mem_filter.mp hdefinition).1, Definition.describes_iff.mp hdescribes⟩

/-- Each record of a definition has a component in the loaded registry. -/
theorem exists_component_of_hasRecord (hload : (Registry.load sources).result = .ok registry)
    {definition : Definition} (hmem : definition ∈ definitionsOf sources) {record : Record}
    (hrecord : definition.HasRecord record) :
    ∃ component ∈ registry.components, record.normalize definition.id = .ok component := by
  have hholds := (load_eq_ok_iff_holds.mp hload).2
  have henabled : definition.isEnabled = true :=
    Definition.isEnabled_iff.mpr (hrecord.imp fun _ htable => htable.1)
  obtain ⟨entry, hentry, hdescribes, -⟩ :=
    exists_rel_of_mem hholds.entries (List.mem_filter.mpr ⟨hmem, henabled⟩)
  obtain ⟨other, hother, hnormal⟩ := Definition.describes_iff.mp hdescribes
  rw [hother.eq hrecord] at hnormal
  exact ⟨entry.component, List.mem_map_of_mem hentry, hnormal⟩

end Registry

/-! ## Positions -/

namespace Registry

variable {registry : Registry} {phase : Phase}

theorem mem_positionsInPhase_iff {place : Nat} {component : Component} :
    (place, component) ∈ registry.positionsInPhase phase ↔
      registry.components[place]? = some component ∧ component.phase = phase := by
  unfold positionsInPhase
  simp only [List.mem_map, List.mem_filter, decide_eq_true_eq, Prod.mk.injEq]
  constructor
  · rintro ⟨⟨_, _⟩, ⟨hmem, hphase⟩, rfl, rfl⟩
    exact ⟨List.mem_zipIdx_iff_getElem?.mp hmem, hphase⟩
  · rintro ⟨hplace, hphase⟩
    exact ⟨(component, place), ⟨List.mem_zipIdx_iff_getElem?.mpr hplace, hphase⟩, rfl, rfl⟩

theorem map_snd_positionsInPhase (registry : Registry) (phase : Phase) :
    (registry.positionsInPhase phase).map Prod.snd = registry.inPhase phase := by
  unfold positionsInPhase inPhase
  have hcomponents : registry.components.zipIdx.map Prod.fst = registry.components :=
    List.zipIdx_map_fst 0 _
  rw [List.map_map]
  nth_rewrite 2 [← hcomponents]
  rw [List.filter_map]
  rfl

theorem pairwise_lt_positionsInPhase (registry : Registry) (phase : Phase) :
    ((registry.positionsInPhase phase).map Prod.fst).Pairwise (· < ·) := by
  unfold positionsInPhase
  rw [List.map_map]
  have hall : (registry.components.zipIdx.map Prod.snd).Pairwise (· < ·) := by
    rw [List.zipIdx_map_snd]
    exact List.pairwise_lt_range'
  exact hall.sublist (List.filter_sublist.map Prod.snd)

theorem position?_of_getElem? {place : Nat} {component : Component}
    (h : registry.components[place]? = some component) :
    registry.position? component.id = some place := by
  rw [position?_eq_some_iff, ids_eq_map_components, List.getElem?_map, h, Option.map_some]

/-- The positions of all phases together are those of the registry, each of them once. -/
theorem perm_range_positions (registry : Registry) :
    (Phase.all.flatMap fun phase => (registry.positionsInPhase phase).map Prod.fst).Perm
      (List.range registry.size) := by
  have hmem {place : Nat} {phase : Phase} :
      place ∈ (registry.positionsInPhase phase).map Prod.fst ↔
        ∃ component, registry.components[place]? = some component ∧ component.phase = phase := by
    simp only [List.mem_map, Prod.exists, exists_and_right, exists_eq_right,
      mem_positionsInPhase_iff]
  rw [List.perm_ext_iff_of_nodup _ List.nodup_range]
  · intro place
    rw [List.mem_flatMap, List.mem_range]
    simp only [hmem]
    have hsize : registry.size = registry.components.length := (List.length_map _).symm
    rw [hsize]
    constructor
    · rintro ⟨phase, -, component, hplace, -⟩
      exact (List.getElem?_eq_some_iff.mp hplace).1
    · intro hlt
      exact ⟨_, Phase.mem_all _, _, List.getElem?_eq_getElem hlt, rfl⟩
  · rw [List.nodup_flatMap]
    refine ⟨fun phase _ => (registry.pairwise_lt_positionsInPhase phase).imp Nat.ne_of_lt, ?_⟩
    -- What stands at a position has one phase only.
    have hdistinct : Phase.all.Pairwise (· ≠ ·) := by decide
    refine hdistinct.imp fun hne place hplace hother => ?_
    obtain ⟨component, hcomponent, rfl⟩ := hmem.mp hplace
    obtain ⟨other, hsame, rfl⟩ := hmem.mp hother
    cases hcomponent.symm.trans hsame
    exact hne rfl

/-! ## Registries -/

/-- How a registry keeps the components of enabled records. -/
structure Represents (registry : Registry) (definitions : List Definition) : Prop where
  /-- There is one component for each record, and it is that of the record. -/
  components : List.Forall₂ (fun definition component => ∃ table record,
      definition.Enables table ∧ Record.ofTable table = .ok record ∧
        component.Represents definition.id record)
    definitions registry.components
  /-- A component is kept under its own id, and each component is. -/
  stored : ∀ id component,
    registry.find? id = some component ↔ component ∈ registry.components ∧ component.id = id
  /-- Components and origins have the ids of the records, in their order. -/
  keys : registry.components.map Component.id = definitions.map Definition.id
  origins : definitions.map (fun definition => registry.origin? definition.id) =
    definitions.map fun definition => some definition.origin
  same_keys : ∀ id, registry.find? id = none ↔ registry.origin? id = none
  /-- A phase lists its members in first-seen order, by increasing positions. -/
  members : ∀ phase, (registry.positionsInPhase phase).map Prod.snd = registry.inPhase phase
  increasing : ∀ phase, ((registry.positionsInPhase phase).map Prod.fst).Pairwise (· < ·)
  located : ∀ phase, ∀ entry ∈ registry.positionsInPhase phase,
    entry.2.phase = phase ∧ registry.position? entry.2.id = some entry.1 ∧
      registry.components[entry.1]? = some entry.2
  /-- Each position is in the list of exactly one phase. -/
  covered : (Phase.all.flatMap fun phase => (registry.positionsInPhase phase).map Prod.fst).Perm
    (List.range registry.size)

theorem forall₂_represents_of_holds {definitions : List Definition}
    (h : registry.Holds definitions) :
    List.Forall₂ (fun definition component => ∃ table record,
        definition.Enables table ∧ Record.ofTable table = .ok record ∧
          component.Represents definition.id record)
      definitions registry.components := by
  unfold components
  rw [List.forall₂_map_right_iff]
  refine h.entries.imp fun definition entry hof => ?_
  obtain ⟨table, record, henables, hrecord, hnormal⟩ := hof.1
  exact ⟨table, record, henables, hrecord, Record.represents_of_normalize hnormal⟩

theorem find?_eq_none_iff_origin? {id : ComponentId} :
    registry.find? id = none ↔ registry.origin? id = none := by
  unfold find? origin?
  rw [Option.map_eq_none_iff, Option.map_eq_none_iff]

end Registry

/-- A registry that is loaded represents the enabled records of its sources. -/
theorem represents_of_load {sources : List Source} {registry : Registry}
    (h : (Registry.load sources).result = .ok registry) :
    registry.Represents ((definitionsOf sources).filter Definition.isEnabled) := by
  obtain ⟨-, hholds⟩ := load_eq_ok_iff_holds.mp h
  have hcomponents := Registry.forall₂_represents_of_holds hholds
  exact {
    components := hcomponents
    stored := fun id component => Registry.find?_eq_some_iff
    keys := by
      refine (map_eq_map_of_forall₂ (fun definition component hrelated => ?_) hcomponents).symm
      obtain ⟨table, record, -, -, hrepresents⟩ := hrelated
      exact hrepresents.id_eq.symm
    origins := List.map_congr_left fun definition hmem =>
      (hholds.origin? _ _).mpr ⟨definition, hmem, rfl, rfl⟩
    same_keys := fun id => Registry.find?_eq_none_iff_origin?
    members := registry.map_snd_positionsInPhase
    increasing := registry.pairwise_lt_positionsInPhase
    located := by
      rintro phase ⟨place, component⟩ hentry
      obtain ⟨hplace, hphase⟩ := Registry.mem_positionsInPhase_iff.mp hentry
      exact ⟨hphase, Registry.position?_of_getElem? hplace, hplace⟩
    covered := registry.perm_range_positions }

/-- Two sources: a disabled record and a component with one routine for both kinds of processor,
whose lists have repetitions; and two components of an earlier phase. -/
theorem represents_of_load_stacks :
    let repeating := ((Draft.perCpu "stacks" "core_devices").provides
      ["irq", "stack", "irq"]).apNeeds ["heap", "heap"]
    let sources : List Source := [
      .ofDrafts "devices.toml" [(Draft.global "timer" "core_devices").disabled, repeating],
      .ofDrafts "memory.toml" [(Draft.global "pages" "memory_management").provides ["heap"],
        (Draft.perCpu "pools" "memory_management").splitRoutines "pools::start" "pools::start_ap"]]
    ∃ registry, (Registry.load sources).result = .ok registry ∧
      registry.ids = [⟨"stacks"⟩, ⟨"pages"⟩, ⟨"pools"⟩] ∧
      registry.Represents ((definitionsOf sources).filter Definition.isEnabled) := by
  intro repeating sources
  have hids : (Registry.load sources).result.map Registry.ids =
      .ok [⟨"stacks"⟩, ⟨"pages"⟩, ⟨"pools"⟩] := by decide +kernel
  cases hload : (Registry.load sources).result with
  | error cause =>
    rw [hload] at hids
    cases hids
  | ok registry =>
    rw [hload] at hids
    exact ⟨registry, rfl, Except.ok.inj hids, represents_of_load hload⟩

end BootTable
