import BootTable.Proofs.CapabilityIndex
import BootTable.Proofs.Registry.Marks

/-!
# BootTable — when no rule is broken

Each rule about a whole registry is a search for its first breach. Here the outcome `none` of each
search is put in terms of the components alone, without marks, index or order of the search.

* **`capabilityOrderFault?_eq_none_iff`**: no provider of a capability is in a phase after that of
  a component that needs it.
* **`explicitFault?_eq_none_iff`**: named components are defined in the same phase.
* **`requiredFault?_eq_none_iff`**: what required components need is provided.
* **`apFault?_eq_none_iff`**: what application processors need is initialized globally.
* **`fault?_eq_none_iff`**: the rules together.
-/

namespace BootTable

theorem Component.mem_consumed {component : Component} {capability : Capability} :
    capability ∈ component.consumed ↔
      capability ∈ component.needs ∨ capability ∈ component.apNeeds := by
  simp [consumed]

theorem Component.initializesGlobally_iff {component : Component} :
    component.initializesGlobally = true ↔
      component.isPerCpu = false ∧ component.phase < Phase.smpBringup := by
  simp [initializesGlobally, Phase.precedesSmp]

namespace Registry

variable {registry : Registry}

/-! ## Capabilities and phases -/

theorem earlier_iff (new old : Phase) : decide (new < old) = true ↔ new.rank < old.rank :=
  decide_eq_true_iff

/-- Of later phases the rank counted from the last phase is smaller. -/
theorem later_iff (new old : Phase) :
    decide (old < new) = true ↔ 4 - new.rank < 4 - old.rank := by
  cases new <;> cases old <;> decide

theorem mem_lastProviders_iff {capability : Capability} {mark : Mark} :
    (capability, mark) ∈ registry.lastProviders ↔
      registry.lastProviders.lookup capability = some mark :=
  (lookup_eq_some_iff_mem (Marks.nodup_keys_collect _)).symm

theorem capabilityOrderFault?_eq_none_iff :
    registry.capabilityOrderFault? = none ↔
      ∀ p ∈ registry.components, ∀ c ∈ registry.components, ∀ x ∈ p.provides,
        x ∈ c.needs ∨ x ∈ c.apNeeds → ¬c.phase < p.phase := by
  unfold capabilityOrderFault?
  rw [List.findSome?_eq_none_iff]
  constructor
  · intro h p hp c hc x hprovided hneeded hlt
    -- The first use is no later than the consumer, the last provider no earlier than the provider.
    obtain ⟨use, huse, hearliest⟩ : ∃ use, (x, use) ∈ registry.firstUses ∧
        use.phase.rank ≤ c.phase.rank :=
      Marks.exists_mem_collect earlier_iff hc (Component.mem_consumed.mpr hneeded)
    obtain ⟨provider, hprovider, hlatest⟩ : ∃ provider, (x, provider) ∈ registry.lastProviders ∧
        4 - provider.phase.rank ≤ 4 - p.phase.rank :=
      Marks.exists_mem_collect later_iff hp hprovided
    have hnone := h (x, use) huse
    simp only [mem_lastProviders_iff.mp hprovider] at hnone
    have hbound : p.phase.rank ≤ 4 := by cases p.phase <;> decide
    split at hnone
    · exact absurd hnone (by simp)
    · rename_i hnot
      rw [Phase.lt_iff_rank_lt] at hlt hnot
      omega
  · rintro h ⟨x, use⟩ huse
    obtain ⟨c, hc, hneeded, rfl⟩ := Marks.exists_of_mem_collect earlier_iff huse
    simp only
    cases hprovider : registry.lastProviders.lookup x with
    | none => rfl
    | some provider =>
      obtain ⟨p, hp, hprovided, rfl⟩ :=
        Marks.exists_of_mem_collect later_iff (mem_lastProviders_iff.mpr hprovider)
      exact if_neg (h p hp c hc x hprovided (Component.mem_consumed.mp hneeded))

/-! ## Explicit dependencies -/

theorem dependencyFault?_eq_none_iff {component : Component} {dependency : ComponentId} :
    registry.dependencyFault? component dependency = none ↔
      ∃ p ∈ registry.components, p.id = dependency ∧ p.phase = component.phase := by
  unfold dependencyFault?
  cases hfound : registry.find? dependency with
  | none =>
    have habsent := find?_eq_none_iff.mp hfound
    constructor
    · intro h
      simp at h
    · rintro ⟨p, hp, hid, -⟩
      exact absurd hid (habsent p hp)
  | some target =>
    obtain ⟨hmem, hid⟩ := find?_eq_some_iff.mp hfound
    constructor
    · intro h
      exact ⟨target, hmem, hid, by simpa using h⟩
    · rintro ⟨p, hp, hpid, hphase⟩
      rw [eq_of_id_eq hp hmem (hpid.trans hid.symm)] at hphase
      simp [hphase]

theorem dependenciesFault?_eq_none_iff {component : Component} :
    registry.dependenciesFault? component = none ↔
      ∀ id ∈ component.dependsOn,
        ∃ p ∈ registry.components, p.id = id ∧ p.phase = component.phase := by
  unfold dependenciesFault?
  simp only [List.findSome?_eq_none_iff, dependencyFault?_eq_none_iff, DistinctList.mem_toList]

theorem explicitFault?_eq_none_iff :
    registry.explicitFault? = none ↔
      ∀ c ∈ registry.components, ∀ id ∈ c.dependsOn,
        ∃ p ∈ registry.components, p.id = id ∧ p.phase = c.phase := by
  unfold explicitFault?
  simp only [List.findSome?_eq_none_iff, dependenciesFault?_eq_none_iff]

/-! ## Needs of required components and of application processors -/

theorem requiredFault?_eq_none_iff {index : CapabilityIndex}
    (hindex : CapabilityIndex.build registry = .ok index) :
    registry.requiredFault? index = none ↔
      ∀ c ∈ registry.components, c.required = true → ∀ x ∈ c.needs,
        ∃ p ∈ registry.components, x ∈ p.provides := by
  unfold requiredFault?
  rw [List.findSome?_eq_none_iff]
  refine forall₂_congr fun c _ => ?_
  by_cases hrequired : c.required = true
  · simp [hrequired, CapabilityIndex.contains_of_build hindex]
  · simp [hrequired]

theorem mem_globalCapabilities {x : Capability} :
    x ∈ registry.globalCapabilities ↔
      ∃ p ∈ registry.components, x ∈ p.provides ∧ p.isPerCpu = false ∧
        p.phase < Phase.smpBringup := by
  rw [globalCapabilities, DistinctList.mem_ofList, List.mem_flatMap]
  simp only [List.mem_filter, Component.initializesGlobally_iff, DistinctList.mem_toList]
  constructor
  · rintro ⟨p, ⟨hp, hglobal⟩, hprovided⟩
    exact ⟨p, hp, hprovided, hglobal⟩
  · rintro ⟨p, hp, hprovided, hglobal⟩
    exact ⟨p, ⟨hp, hglobal⟩, hprovided⟩

theorem apFault?_eq_none_iff :
    registry.apFault? = none ↔
      ∀ c ∈ registry.components, ∀ x ∈ c.apNeeds,
        ∃ p ∈ registry.components, x ∈ p.provides ∧ p.isPerCpu = false ∧
          p.phase < Phase.smpBringup := by
  unfold apFault?
  simp [List.findSome?_eq_none_iff, mem_globalCapabilities]

/-! ## The rules together -/

theorem fault?_eq_none_iff {index : CapabilityIndex} :
    registry.fault? index = none ↔
      registry.capabilityOrderFault? = none ∧ registry.explicitFault? = none ∧
        registry.requiredFault? index = none ∧ registry.apFault? = none := by
  simp [fault?]

end Registry

end BootTable
