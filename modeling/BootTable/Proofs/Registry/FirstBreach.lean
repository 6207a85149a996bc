import BootTable.Proofs.FirstOfKind
import BootTable.Proofs.Registry.Rules

/-!
# BootTable — which breach of a rule is reported

Each rule about a whole registry is a search through the components and, in each, through the
entries of one of its lists. What the search answers is thus the first breach: it is in the first
component that has any, and there it is the first entry that is one.

* **`Registry.FirstBreach`**: the first component at fault and its first entry at fault.
* **`exists_firstBreach_of_explicitFault?`** and its like: the answer of each rule.
-/

namespace BootTable

namespace Registry

/-- The first component of which some entry is a breach, and the first such entry of it. -/
structure FirstBreach {α : Type} (registry : Registry) (entries : Component → List α)
    (breach : Component → α → Prop) (component : Component) (entry : α) : Prop where
  component_first : IsFirst (fun c => ∃ a ∈ entries c, breach c a) registry.components component
  entry_first : IsFirst (breach component) (entries component) entry

variable {registry : Registry} {cause : PlanError}

/-! ## Explicit dependencies -/

/-- A component names no component of its phase by this id. -/
def Misnames (registry : Registry) (component : Component) (id : ComponentId) : Prop :=
  ¬∃ p ∈ registry.components, p.id = id ∧ p.phase = component.phase

theorem dependencyFault?_eq_some_iff {component : Component} {id : ComponentId} :
    registry.dependencyFault? component id = some cause ↔
      ((∀ p ∈ registry.components, p.id ≠ id) ∧ cause = .unknownDependency component.id id) ∨
        ∃ p ∈ registry.components, p.id = id ∧ p.phase ≠ component.phase ∧
          cause = .crossPhaseDependency component.id component.phase id p.phase := by
  unfold dependencyFault?
  cases hfound : registry.find? id with
  | none =>
    have habsent := find?_eq_none_iff.mp hfound
    constructor
    · intro h
      exact .inl ⟨habsent, (Option.some.inj h).symm⟩
    · rintro (⟨-, rfl⟩ | ⟨p, hp, hid, -⟩)
      · rfl
      · exact absurd hid (habsent p hp)
  | some target =>
    obtain ⟨hmem, hid⟩ := find?_eq_some_iff.mp hfound
    constructor
    · intro h
      by_cases hphase : target.phase = component.phase
      · simp [hphase] at h
      · exact .inr ⟨target, hmem, hid, hphase, by simpa [hphase, eq_comm] using h⟩
    · rintro (⟨habsent, -⟩ | ⟨p, hp, hpid, hphase, rfl⟩)
      · exact absurd hid (habsent target hmem)
      · rw [eq_of_id_eq hp hmem (hpid.trans hid.symm)] at hphase ⊢
        simp [hphase]

theorem dependenciesFault?_eq_none_iff_not_misnames {component : Component} :
    registry.dependenciesFault? component = none ↔
      ¬∃ id ∈ component.dependsOn, registry.Misnames component id := by
  rw [dependenciesFault?_eq_none_iff]
  simp only [not_exists, not_and]
  refine forall₂_congr fun id _ => ?_
  rw [Misnames, not_not]

/-- Of any components, what is reported is the first name of the first component that names none
of its phase by it. -/
theorem exists_isFirst_of_dependenciesFault? {members : List Component}
    (h : members.findSome? registry.dependenciesFault? = some cause) :
    ∃ c id, IsFirst (fun c => ∃ id ∈ c.dependsOn, registry.Misnames c id) members c ∧
      IsFirst (registry.Misnames c) c.dependsOn.toList id ∧
      registry.dependencyFault? c id = some cause := by
  have hentry (c : Component) (id : ComponentId) :
      registry.dependencyFault? c id = none ↔ ¬registry.Misnames c id := by
    rw [dependencyFault?_eq_none_iff, Misnames, not_not]
  obtain ⟨c, hfirst, hfault⟩ :=
    exists_isFirst_of_findSome? (fun c _ => dependenciesFault?_eq_none_iff_not_misnames) h
  obtain ⟨id, hfirst', hfault'⟩ := exists_isFirst_of_findSome? (fun id _ => hentry c id) hfault
  exact ⟨c, id, hfirst, hfirst', hfault'⟩

theorem exists_firstBreach_of_explicitFault? (h : registry.explicitFault? = some cause) :
    ∃ c id, registry.FirstBreach (fun c => c.dependsOn.toList) registry.Misnames c id ∧
      registry.dependencyFault? c id = some cause := by
  obtain ⟨c, id, hfirst, hfirst', hfault⟩ := exists_isFirst_of_dependenciesFault? h
  exact ⟨c, id, ⟨hfirst, hfirst'⟩, hfault⟩

/-! ## Needs of required components and of application processors -/

/-- A required component needs a capability that nothing provides. -/
def LacksRequired (registry : Registry) (component : Component) (x : Capability) : Prop :=
  component.required = true ∧ ¬∃ p ∈ registry.components, x ∈ p.provides

/-- A capability is not initialized globally before application processors start. -/
def LacksInitialized (registry : Registry) (x : Capability) : Prop :=
  ¬∃ p ∈ registry.components, x ∈ p.provides ∧ p.isPerCpu = false ∧ p.phase < Phase.smpBringup

theorem exists_firstBreach_of_find? {α : Type} {entries : Component → List α}
    {breach : Component → α → Prop} {test : Component → α → Bool}
    (htest : ∀ c a, test c a = true ↔ breach c a) {report : Component → α → PlanError}
    (h : (registry.components.findSome? fun c =>
      ((entries c).find? (test c)).map (report c)) = some cause) :
    ∃ c a, registry.FirstBreach entries breach c a ∧ cause = report c a := by
  have hcomponent (c : Component) : ((entries c).find? (test c)).map (report c) = none ↔
      ¬∃ a ∈ entries c, breach c a := by
    rw [Option.map_eq_none_iff, List.find?_eq_none]
    simp only [htest, not_exists, not_and]
  obtain ⟨c, hfirst, hfault⟩ := exists_isFirst_of_findSome? (fun c _ => hcomponent c) h
  obtain ⟨a, hfound, hcause⟩ := Option.map_eq_some_iff.mp hfault
  exact ⟨c, a, ⟨hfirst, isFirst_of_find? (htest c) hfound⟩, hcause.symm⟩

theorem exists_firstBreach_of_requiredFault? {index : CapabilityIndex}
    (hindex : CapabilityIndex.build registry = .ok index)
    (h : registry.requiredFault? index = some cause) :
    ∃ c x, registry.FirstBreach (fun c => c.needs.toList) registry.LacksRequired c x ∧
      cause = .missingRequiredCapability c.id x := by
  -- Components that are not required are passed over: none of their needs is a breach.
  have hsearch : registry.requiredFault? index = registry.components.findSome? fun c =>
      (c.needs.toList.find? fun x => c.required && !index.contains x).map
        (.missingRequiredCapability c.id) := by
    unfold requiredFault?
    congr 1
    funext c
    cases c.required with
    | true => simp
    | false =>
      have hnone : (c.needs.toList.find? fun _ => false) = none := by simp [List.find?_eq_none]
      simp [hnone]
  rw [hsearch] at h
  refine exists_firstBreach_of_find? (fun c x => ?_) h
  rw [Bool.and_eq_true, Bool.not_eq_true', ← Bool.not_eq_true,
    CapabilityIndex.contains_of_build hindex]
  rfl

theorem exists_firstBreach_of_apFault? (h : registry.apFault? = some cause) :
    ∃ c x, registry.FirstBreach (fun c => c.apNeeds.toList) (fun _ => registry.LacksInitialized)
      c x ∧ cause = .unsatisfiedApDependency c.id x := by
  refine exists_firstBreach_of_find? (fun c x => ?_) h
  rw [decide_eq_true_iff, mem_globalCapabilities]
  rfl

/-! ## The rules together -/

theorem fault?_eq_some_iff {index : CapabilityIndex} :
    registry.fault? index = some cause ↔
      registry.capabilityOrderFault? = some cause ∨
      registry.capabilityOrderFault? = none ∧ (registry.explicitFault? = some cause ∨
        registry.explicitFault? = none ∧ (registry.requiredFault? index = some cause ∨
          registry.requiredFault? index = none ∧ registry.apFault? = some cause)) := by
  simp only [fault?, Option.orElse_eq_orElse, Option.orElse_eq_or, Option.or_eq_some_iff]

end Registry

end BootTable
