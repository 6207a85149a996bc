import BootTable.Proofs.CapabilityIndex
import BootTable.Proofs.Registry.Representation

/-!
# BootTable — the index of the records of sources

A record may list a capability among those that it provides more than once. Its component provides
the capability once, so the index lists the component once, and a component does not compete with
itself for a unique capability. Two components do, and the failure names the first two of them.

* **`exists_provides_iff_lists`**: the components that provide a capability are those of the records
  that list it, once or often.
* **`isIndexOf_of_build`**: what an index lists of a registry, and in which order.
* **`build_of_load`**: when sources have an index, and which failure is reported otherwise.
-/

namespace BootTable

/-! ## Records that list a capability -/

/-- The enabled record of a definition lists a capability among those that it provides. -/
def Definition.Lists (definition : Definition) (x : Capability) : Prop :=
  ∃ record, definition.HasRecord record ∧ x.name ∈ record.provides

theorem Record.mem_provides_of_normalize {record : Record} {id : ComponentId}
    {component : Component} (h : record.normalize id = .ok component) {x : Capability} :
    x ∈ component.provides ↔ x.name ∈ record.provides := by
  obtain ⟨bootstrap, ap, phase, importance, execution, -, -, -, -, -, rfl⟩ :=
    normalize_eq_ok_iff.mp h
  exact mem_ofList_map_mk_iff

namespace Registry

variable {registry : Registry} {sources : List Source}

theorem exists_provides_iff_lists (hload : (Registry.load sources).result = .ok registry)
    {id : ComponentId} {x : Capability} :
    (∃ c ∈ registry.components, c.id = id ∧ x ∈ c.provides) ↔
      ∃ definition ∈ definitionsOf sources, definition.id = id ∧ definition.Lists x := by
  constructor
  · rintro ⟨c, hc, rfl, hprovided⟩
    obtain ⟨definition, hdefinition, record, hrecord, hnormal⟩ := exists_hasRecord_of_load hload hc
    have hid := (Record.represents_of_normalize hnormal).id_eq
    exact ⟨definition, hdefinition, hid.symm, record, hrecord,
      (Record.mem_provides_of_normalize hnormal).mp hprovided⟩
  · rintro ⟨definition, hdefinition, rfl, record, hrecord, hlisted⟩
    obtain ⟨c, hc, hnormal⟩ := exists_component_of_hasRecord hload hdefinition hrecord
    exact ⟨c, hc, (Record.represents_of_normalize hnormal).id_eq,
      (Record.mem_provides_of_normalize hnormal).mpr hlisted⟩

/-- No two components provide the numbering of processors exactly if no two records list it. -/
theorem unambiguous_iff_lists (hload : (Registry.load sources).result = .ok registry) :
    CapabilityIndex.Unambiguous registry.components ↔
      ∀ d ∈ definitionsOf sources, ∀ e ∈ definitionsOf sources,
        d.Lists .logicalCpuId → e.Lists .logicalCpuId → d.id = e.id := by
  constructor
  · intro h d hd e he hlisted hlisted'
    obtain ⟨p, hp, hpid, hprovided⟩ :=
      (exists_provides_iff_lists hload).mpr ⟨d, hd, rfl, hlisted⟩
    obtain ⟨q, hq, hqid, hprovided'⟩ :=
      (exists_provides_iff_lists hload).mpr ⟨e, he, rfl, hlisted'⟩
    rw [← hpid, ← hqid, h p hp q hq hprovided hprovided']
  · intro h p hp q hq hprovided hprovided'
    obtain ⟨d, hd, hdid, hlisted⟩ :=
      (exists_provides_iff_lists hload).mp ⟨p, hp, rfl, hprovided⟩
    obtain ⟨e, he, heid, hlisted'⟩ :=
      (exists_provides_iff_lists hload).mp ⟨q, hq, rfl, hprovided'⟩
    exact eq_of_id_eq hp hq (hdid.symm.trans ((h d hd e he hlisted hlisted').trans heid))

end Registry

/-! ## What an index lists -/

namespace CapabilityIndex

/-- The index lists what the components of a registry provide. -/
structure IsIndexOf (index : CapabilityIndex) (registry : Registry) : Prop where
  /-- The capabilities that it lists are those that some component provides. -/
  contains_iff : ∀ x, index.contains x = true ↔ ∃ c ∈ registry.components, x ∈ c.provides
  /-- The providers of a capability are the components that provide it. -/
  providers_eq : ∀ x, index.providers x =
    (registry.components.filter fun c => x ∈ c.provides).map Component.id
  nodup_providers : ∀ x, (index.providers x).Nodup
  /-- Providers stand in first-seen order. -/
  increasing : ∀ x, (index.providers x).Pairwise registry.SeenBefore
  /-- Capabilities stand in the order in which they are first provided. -/
  entries_eq : index.entries =
    (firstOccurrences (registry.components.flatMap fun c => c.provides.toList)).map fun x =>
      (x, index.providers x)

theorem providersAmong_sublist_ids (registry : Registry) (x : Capability) :
    (providersAmong registry.components x).Sublist registry.ids := by
  rw [Registry.ids_eq_map_components]
  exact List.filter_sublist.map _

theorem isIndexOf_of_build {registry : Registry} {index : CapabilityIndex}
    (h : build registry = .ok index) : index.IsIndexOf registry where
  contains_iff := contains_of_build h
  providers_eq := providers_of_build h
  nodup_providers x := by
    rw [providers_of_build h]
    exact registry.nodup_ids'.sublist (providersAmong_sublist_ids registry x)
  increasing x := by
    rw [providers_of_build h]
    exact registry.pairwise_seenBefore_ids.sublist (providersAmong_sublist_ids registry x)
  entries_eq := by
    obtain ⟨-, rfl⟩ := build_eq_ok_iff.mp h
    rw [entries_ofProvisions, map_fst_provisions]
    simp only [providers_ofProvisions]

/-- There is an index exactly if no two components provide the numbering of processors, that is, if
no two records list it, however often one of them does. The index then lists what the components
provide. Otherwise the failure names the first two components that provide the numbering. -/
theorem build_of_load {sources : List Source} {registry : Registry}
    (hload : (Registry.load sources).result = .ok registry) :
    ((∃ index, build registry = .ok index) ↔
        ∀ p ∈ registry.components, ∀ q ∈ registry.components,
          .logicalCpuId ∈ p.provides → .logicalCpuId ∈ q.provides → p = q) ∧
      ((∃ index, build registry = .ok index) ↔
        ∀ d ∈ definitionsOf sources, ∀ e ∈ definitionsOf sources,
          d.Lists .logicalCpuId → e.Lists .logicalCpuId → d.id = e.id) ∧
      (∀ index, build registry = .ok index → index.IsIndexOf registry) ∧
      ∀ cause, build registry = .error cause ↔ ∃ first second rest,
        (registry.components.filter fun c => .logicalCpuId ∈ c.provides).map Component.id =
            first :: second :: rest ∧
          cause = .nonUniqueCapability .logicalCpuId first second := by
  have hindexed : (∃ index, build registry = .ok index) ↔ Unambiguous registry.components := by
    simp only [build_eq_ok_iff, exists_and_left, exists_eq, and_true]
  refine ⟨hindexed, hindexed.trans (Registry.unambiguous_iff_lists hload),
    fun index => isIndexOf_of_build, fun cause => ?_⟩
  simp only [build_eq_error_iff, exists_and_right]
  exact Iff.rfl

/-- Two records of which the first one lists the numbering of processors twice; and the same with a
third record, of another source, that lists it too. -/
theorem build_of_load_processors :
    let cpus := (Draft.perCpu "cpus" "processor_early").provides
      ["logical_cpu_id", "irq", "logical_cpu_id"]
    let pic := (Draft.global "pic" "core_devices").provides ["timer", "irq"]
    let apic := (Draft.perCpu "apic" "core_devices").provides ["logical_cpu_id"]
    (∃ registry, ∃ index : CapabilityIndex,
        (Registry.load [.ofDrafts "devices.toml" [cpus, pic]]).result = .ok registry ∧
        index.IsIndexOf registry ∧ index.entries = [(⟨"logical_cpu_id"⟩, [⟨"cpus"⟩]),
          (⟨"irq"⟩, [⟨"cpus"⟩, ⟨"pic"⟩]), (⟨"timer"⟩, [⟨"pic"⟩])]) ∧
      ∃ registry, (Registry.load [.ofDrafts "devices.toml" [cpus, pic],
          .ofDrafts "apic.toml" [apic]]).result = .ok registry ∧
        ∃ rest, (registry.components.filter fun c => .logicalCpuId ∈ c.provides).map Component.id =
          ⟨"cpus"⟩ :: ⟨"apic"⟩ :: rest := by
  intro cpus pic apic
  have hindex : (Registry.load [.ofDrafts "devices.toml" [cpus, pic]]).result.map build =
      .ok (.ok ⟨[(⟨"logical_cpu_id"⟩, [⟨"cpus"⟩]), (⟨"irq"⟩, [⟨"cpus"⟩, ⟨"pic"⟩]),
        (⟨"timer"⟩, [⟨"pic"⟩])]⟩) := by decide +kernel
  have herror : (Registry.load [.ofDrafts "devices.toml" [cpus, pic],
      .ofDrafts "apic.toml" [apic]]).result.map build =
        .ok (.error (.nonUniqueCapability .logicalCpuId ⟨"cpus"⟩ ⟨"apic"⟩)) := by decide +kernel
  obtain ⟨registry, hload, hbuild⟩ := map_eq_ok_iff.mp hindex
  obtain ⟨other, hload', hbuild'⟩ := map_eq_ok_iff.mp herror
  obtain ⟨-, -, hlists, -⟩ := build_of_load hload
  obtain ⟨-, -, -, hreports⟩ := build_of_load hload'
  obtain ⟨first, second, rest, hproviders, hcause⟩ := (hreports _).mp hbuild'
  obtain ⟨-, rfl, rfl⟩ := RegistryError.nonUniqueCapability.inj hcause
  exact ⟨⟨registry, _, hload, hlists _ hbuild, rfl⟩, other, hload', rest, hproviders⟩

end CapabilityIndex

end BootTable
