import BootTable.Proofs.Plan.Order
import BootTable.Proofs.Registry.CapabilityOrder

/-!
# BootTable — why a registry has no plan

A registry can break many rules in many places at once. Scheduling makes its checks in a fixed
order and stops at the first one that fails, and that check reports its own first breach. So the
cause is determined by the components alone.

* **`orderPhases_eq_error_iff`**: once the checks about the whole registry have passed, the only
  cause left is the circle of the first phase that has one.
* **`schedule_eq_error_iff`**: the causes of scheduling, check by check.
* **`Registry.Reports`**: what a cause says about the registry that it is reported for.
* **`firstFailure_of_schedule`**: the cause is that of the first check that fails, and reports its
  first breach.
-/

namespace BootTable

open Relation

/-! ## The checks -/

/-- The checks of scheduling, in the order in which they are made. -/
inductive Check where
  | numbering
  | capabilityOrder
  | named
  | required
  | applicationProcessors
  | circles
deriving DecidableEq

namespace Check

/-- The place of a check in that order. -/
def rank : Check → Nat
  | numbering => 0
  | capabilityOrder => 1
  | named => 2
  | required => 3
  | applicationProcessors => 4
  | circles => 5

instance : LT Check := ⟨fun a b => a.rank < b.rank⟩

theorem lt_iff_rank_lt {a b : Check} : a < b ↔ a.rank < b.rank := Iff.rfl

theorem not_lt_numbering (check : Check) : ¬check < numbering :=
  Nat.not_lt_zero check.rank

theorem rank_injective {a b : Check} (h : a.rank = b.rank) : a = b := by
  cases a <;> cases b <;> simp_all [rank]

theorem forall_lt_of_rank_eq_succ {p : Check → Prop} {a b : Check} (hnext : b.rank = a.rank + 1)
    (hearlier : ∀ check < a, p check) (ha : p a) : ∀ check < b, p check := by
  intro check hlt
  rw [lt_iff_rank_lt, hnext] at hlt
  rcases Nat.lt_succ_iff_lt_or_eq.mp hlt with hlt | heq
  · exact hearlier check hlt
  · rw [rank_injective heq]
    exact ha

end Check

/-- The check that reports a cause. -/
def PlanError.check : PlanError → Check
  | registry _ => .numbering
  | capabilityOrdering .. => .capabilityOrder
  | unknownDependency .. | crossPhaseDependency .. => .named
  | missingRequiredCapability .. => .required
  | unsatisfiedApDependency .. => .applicationProcessors
  | dependencyCycle .. => .circles

namespace Registry

/-- What a registry has to meet for a check to pass. -/
def Meets (registry : Registry) : Check → Prop
  | .numbering => CapabilityIndex.Unambiguous registry.components
  | .capabilityOrder => ∀ p ∈ registry.components, ∀ c ∈ registry.components, ∀ x ∈ p.provides,
    x ∈ c.needs ∨ x ∈ c.apNeeds → ¬c.phase < p.phase
  | .named => ∀ c ∈ registry.components, ∀ id ∈ c.dependsOn, ¬registry.Misnames c id
  | .required => ∀ c ∈ registry.components, ∀ x ∈ c.needs, ¬registry.LacksRequired c x
  | .applicationProcessors => ∀ c ∈ registry.components, ∀ x ∈ c.apNeeds,
    ¬registry.LacksInitialized x
  | .circles => ∀ phase component, ¬TransGen (registry.LeadsIn phase) component component

/-- What a cause says: which breach of which rule it is about. -/
inductive Reports (registry : Registry) : PlanError → Prop
  /-- The first two components that provide the numbering of processors. -/
  | numbering {first second : ComponentId} {rest : List ComponentId}
      (hproviders : providersAmong registry.components .logicalCpuId = first :: second :: rest) :
      registry.Reports (.registry (.nonUniqueCapability .logicalCpuId first second))
  | capabilityOrder {p c : Component} {x : Capability} (hp : p ∈ registry.components)
      (hc : c ∈ registry.components) (hprovides : x ∈ p.provides)
      (hneeds : x ∈ c.needs ∨ x ∈ c.apNeeds) (hlate : c.phase < p.phase) :
      registry.Reports (.capabilityOrdering x p.id p.phase c.id c.phase)
  /-- The first name that is not that of a component of the phase is that of none. -/
  | unknown {c : Component} {id : ComponentId}
      (hfirst : registry.FirstBreach (fun c => c.dependsOn.toList) registry.Misnames c id)
      (hunknown : ∀ p ∈ registry.components, p.id ≠ id) :
      registry.Reports (.unknownDependency c.id id)
  /-- The first name that is not that of a component of the phase is that of one of another. -/
  | crossPhase {c p : Component}
      (hfirst : registry.FirstBreach (fun c => c.dependsOn.toList) registry.Misnames c p.id)
      (hp : p ∈ registry.components) (hphase : p.phase ≠ c.phase) :
      registry.Reports (.crossPhaseDependency c.id c.phase p.id p.phase)
  | required {c : Component} {x : Capability}
      (hfirst : registry.FirstBreach (fun c => c.needs.toList) registry.LacksRequired c x) :
      registry.Reports (.missingRequiredCapability c.id x)
  | applicationProcessors {c : Component} {x : Capability}
      (hfirst : registry.FirstBreach (fun c => c.apNeeds.toList)
        (fun _ => registry.LacksInitialized) c x) :
      registry.Reports (.unsatisfiedApDependency c.id x)
  /-- The first phase that has a circle. -/
  | circle {phase : Phase} {cycle unresolved : List ComponentId}
      (hcircle : ∃ component, TransGen (registry.LeadsIn phase) component component)
      (hearlier : ∀ earlier < phase, ∀ component,
        ¬TransGen (registry.LeadsIn earlier) component component) :
      registry.Reports (.dependencyCycle phase cycle unresolved)

/-- The cause is that of the first check that fails, and reports the first breach of its rule. -/
structure FirstFailure (registry : Registry) (cause : PlanError) : Prop where
  fails : ¬registry.Meets cause.check
  earlier : ∀ check < cause.check, registry.Meets check
  reports : registry.Reports cause

end Registry

/-! ## The phases one after the other -/

theorem Phase.mem_of_lt_of_split {before after : List Phase} {phase earlier : Phase}
    (hsplit : Phase.all = before ++ phase :: after) (h : earlier < phase) : earlier ∈ before := by
  have hsorted : Phase.all.Pairwise (· < ·) := by decide
  have hmem := Phase.mem_all earlier
  rw [hsplit] at hsorted hmem
  obtain ⟨-, hafter, -⟩ := List.pairwise_append.mp hsorted
  rcases List.mem_append.mp hmem with hbefore | hrest
  · exact hbefore
  -- What stands at `phase` or after it does not precede it.
  · rw [lt_iff_rank_lt] at h
    rcases List.mem_cons.mp hrest with rfl | hlater
    · omega
    · have hlt := List.rel_of_pairwise_cons hafter hlater
      rw [lt_iff_rank_lt] at hlt
      omega

section

variable {registry : Registry} {index : CapabilityIndex} {cause : PlanError}
  (hindex : CapabilityIndex.build registry = .ok index)
  (hnamed : ∀ component ∈ registry.components, registry.dependenciesFault? component = none)

include hindex hnamed

theorem build_eq_graphOf (phase : Phase) :
    (PhaseGraph.build registry index phase).result = .ok (registry.graphOf phase) := by
  rw [PhaseGraph.build_eq_ok_iff hindex]
  exact ⟨fun component hmem => hnamed component (Registry.mem_inPhase.mp hmem).1, rfl⟩

theorem orderPhase_eq_error_iff {phase : Phase} :
    (orderPhase registry index phase).result = .error cause ↔
      (registry.graphOf phase).sort = .error cause := by
  have hbuild := build_eq_graphOf hindex hnamed phase
  unfold orderPhase
  simp only [Logged.result_bind_eq_error_iff, Logged.result_ofExcept, hbuild]
  constructor
  · rintro (hbuilt | ⟨graph, hgraph, hsort | ⟨ids, -, hreport | ⟨_, -, hpure⟩⟩⟩)
    · cases hbuilt
    · cases hgraph
      exact hsort
    · cases hreport
    · cases hpure
  · intro hsort
    exact .inr ⟨_, rfl, .inl hsort⟩

theorem orderPhases_eq_error_iff {phases : List Phase} :
    (orderPhases registry index phases).result = .error cause ↔
      ∃ phase, IsFirst (fun phase => ¬(registry.graphOf phase).Acyclic) phases phase ∧
        (registry.graphOf phase).sort = .error cause := by
  induction phases with
  | nil =>
    constructor
    · intro h
      cases h
    · rintro ⟨phase, hfirst, -⟩
      exact absurd hfirst not_isFirst_nil
  | cons phase others ih =>
    unfold orderPhases
    simp only [Logged.result_bind_eq_error_iff, orderPhase_eq_error_iff hindex hnamed,
      orderPhase_eq_ok_iff hindex, ih, isFirst_cons_iff, not_not]
    -- Either the head has a circle, or it is ordered and the first circle is in a later phase.
    constructor
    · rintro (hsort | ⟨order, ⟨-, hacyclic, -⟩, ⟨later, hfirst, hsort⟩ | ⟨_, -, hpure⟩⟩)
      · have hcircle := ((PhaseGraph.sort_eq_error_iff (registry.wellFormed_graphOf phase)).mp hsort).1
        exact ⟨phase, .inl ⟨rfl, hcircle⟩, hsort⟩
      · exact ⟨later, .inr ⟨hacyclic, hfirst⟩, hsort⟩
      · cases hpure
    · rintro ⟨found, ⟨rfl, -⟩ | ⟨hacyclic, hfirst⟩, hsort⟩
      · exact .inl hsort
      · refine .inr ⟨_, ⟨fun component hmem => ?_, hacyclic, rfl⟩, .inl ⟨found, hfirst, hsort⟩⟩
        exact hnamed component (Registry.mem_inPhase.mp hmem).1

end

/-! ## Scheduling -/

theorem Registry.dependenciesFault?_of_fault? {registry : Registry} {index : CapabilityIndex}
    (h : registry.fault? index = none) :
    ∀ component ∈ registry.components, registry.dependenciesFault? component = none :=
  List.findSome?_eq_none_iff.mp (fault?_eq_none_iff.mp h).2.1

theorem schedule_eq_error_iff {registry : Registry} {cause : PlanError} :
    (schedule registry).result = .error cause ↔
      (∃ own, CapabilityIndex.build registry = .error own ∧ .registry own = cause) ∨
      ∃ index, CapabilityIndex.build registry = .ok index ∧
        (registry.fault? index = some cause ∨ registry.fault? index = none ∧
          ∃ phase, IsFirst (fun phase => ¬(registry.graphOf phase).Acyclic) Phase.all phase ∧
            (registry.graphOf phase).sort = .error cause) := by
  unfold schedule
  simp only [Logged.result_bind_eq_error_iff, Logged.result_ofExcept, mapError_eq_error_iff,
    mapError_eq_ok_iff, Logged.result_reject_eq_error_iff]
  -- Reports do not fail, nor does what is answered at the end: the cases of these are void.
  constructor
  · rintro (hbuild | ⟨index, hindex, hreport | ⟨-, -, hfault | ⟨⟨⟩, hsound, hrest⟩⟩⟩)
    · exact .inl hbuild
    · cases hreport
    · exact .inr ⟨index, hindex, .inl hfault⟩
    · rw [Logged.result_reject_eq_ok_iff] at hsound
      rcases hrest with hreport | ⟨-, -, hphases | ⟨_, -, hreport | ⟨_, -, hpure⟩⟩⟩
      · cases hreport
      · have hnamed := Registry.dependenciesFault?_of_fault? hsound
        exact .inr ⟨index, hindex, .inr ⟨hsound, (orderPhases_eq_error_iff hindex hnamed).mp hphases⟩⟩
      · cases hreport
      · cases hpure
  · rintro (hbuild | ⟨index, hindex, hfault | ⟨hsound, hphases⟩⟩)
    · exact .inl hbuild
    · exact .inr ⟨index, hindex, .inr ⟨(), rfl, .inl hfault⟩⟩
    · have hnamed := Registry.dependenciesFault?_of_fault? hsound
      exact .inr ⟨index, hindex, .inr ⟨(), rfl, .inr ⟨(), Logged.result_reject_eq_ok_iff.mpr hsound,
        .inr ⟨(), rfl, .inl ((orderPhases_eq_error_iff hindex hnamed).mpr hphases)⟩⟩⟩⟩

/-! ## The first check that fails -/

namespace Registry

variable {registry : Registry} {index : CapabilityIndex} {cause : PlanError}

theorem meets_named_iff : registry.Meets .named ↔ registry.explicitFault? = none := by
  rw [explicitFault?_eq_none_iff]
  simp only [Meets, Misnames, not_not]

theorem meets_required_iff (hindex : CapabilityIndex.build registry = .ok index) :
    registry.Meets .required ↔ registry.requiredFault? index = none := by
  rw [requiredFault?_eq_none_iff hindex]
  simp only [Meets, LacksRequired, not_and, not_not]
  exact forall₂_congr fun c _ => ⟨fun h hrequired x hx => h x hx hrequired,
    fun h x hx hrequired => h hrequired x hx⟩

theorem meets_applicationProcessors_iff :
    registry.Meets .applicationProcessors ↔ registry.apFault? = none := by
  rw [apFault?_eq_none_iff]
  simp only [Meets, LacksInitialized, not_not]

theorem meets_circles_iff : registry.Meets .circles ↔ ∀ phase, (registry.graphOf phase).Acyclic :=
  forall_congr' fun _ => acyclic_graphOf_iff.symm

/-! ### Causes of the checks about the whole registry -/

theorem firstFailure_of_build {own : RegistryError}
    (h : CapabilityIndex.build registry = .error own) : registry.FirstFailure (.registry own) where
  fails hmeets := by
    have hok : CapabilityIndex.build registry = .ok _ :=
      CapabilityIndex.build_eq_ok_iff.mpr ⟨hmeets, rfl⟩
    cases h.symm.trans hok
  earlier check hlt := absurd hlt check.not_lt_numbering
  reports := by
    obtain ⟨first, second, ⟨rest, hproviders⟩, rfl⟩ := CapabilityIndex.build_eq_error_iff.mp h
    exact .numbering hproviders

section

variable (hindex : CapabilityIndex.build registry = .ok index)

include hindex

theorem meets_of_lt_capabilityOrder : ∀ check < Check.capabilityOrder, registry.Meets check := by
  have hnumbering : registry.Meets .numbering := (CapabilityIndex.build_eq_ok_iff.mp hindex).1
  exact Check.forall_lt_of_rank_eq_succ rfl (fun check hlt => absurd hlt check.not_lt_numbering)
    hnumbering

theorem meets_of_lt_named (horder : registry.capabilityOrderFault? = none) :
    ∀ check < Check.named, registry.Meets check :=
  Check.forall_lt_of_rank_eq_succ rfl (meets_of_lt_capabilityOrder hindex)
    (capabilityOrderFault?_eq_none_iff.mp horder)

theorem meets_of_lt_required (horder : registry.capabilityOrderFault? = none)
    (hnamed : registry.explicitFault? = none) : ∀ check < Check.required, registry.Meets check :=
  Check.forall_lt_of_rank_eq_succ rfl (meets_of_lt_named hindex horder)
    (meets_named_iff.mpr hnamed)

theorem meets_of_lt_applicationProcessors (horder : registry.capabilityOrderFault? = none)
    (hnamed : registry.explicitFault? = none) (hrequired : registry.requiredFault? index = none) :
    ∀ check < Check.applicationProcessors, registry.Meets check :=
  Check.forall_lt_of_rank_eq_succ rfl (meets_of_lt_required hindex horder hnamed)
    ((meets_required_iff hindex).mpr hrequired)

theorem meets_of_lt_circles (h : registry.fault? index = none) :
    ∀ check < Check.circles, registry.Meets check := by
  obtain ⟨horder, hnamed, hrequired, hap⟩ := fault?_eq_none_iff.mp h
  exact Check.forall_lt_of_rank_eq_succ rfl
    (meets_of_lt_applicationProcessors hindex horder hnamed hrequired)
    (meets_applicationProcessors_iff.mpr hap)

end

theorem firstFailure_of_capabilityOrderFault?
    (hearlier : ∀ check < Check.capabilityOrder, registry.Meets check)
    (h : registry.capabilityOrderFault? = some cause) : registry.FirstFailure cause := by
  obtain ⟨x, p, c, hfirst, hp, hc, rfl⟩ := exists_isFirst_of_capabilityOrderFault? h
  have hlate : c.phase < p.phase := (overdue_iff hp hc).mp hfirst.holds
  exact ⟨fun hmeets => hmeets p hp.mem c hc.mem x hp.holds.1 hc.holds.1 hlate, hearlier,
    .capabilityOrder hp.mem hc.mem hp.holds.1 hc.holds.1 hlate⟩

theorem firstFailure_of_explicitFault? (hearlier : ∀ check < Check.named, registry.Meets check)
    (h : registry.explicitFault? = some cause) : registry.FirstFailure cause := by
  have hfails : ¬registry.Meets .named := by
    rw [meets_named_iff, h]
    exact Option.some_ne_none cause
  obtain ⟨c, id, hfirst, hfault⟩ := exists_firstBreach_of_explicitFault? h
  rcases dependencyFault?_eq_some_iff.mp hfault with ⟨hunknown, rfl⟩ | ⟨p, hp, rfl, hphase, rfl⟩
  · exact ⟨hfails, hearlier, .unknown hfirst hunknown⟩
  · exact ⟨hfails, hearlier, .crossPhase hfirst hp hphase⟩

theorem firstFailure_of_requiredFault? (hindex : CapabilityIndex.build registry = .ok index)
    (hearlier : ∀ check < Check.required, registry.Meets check)
    (h : registry.requiredFault? index = some cause) : registry.FirstFailure cause := by
  have hfails : ¬registry.Meets .required := by
    rw [meets_required_iff hindex, h]
    exact Option.some_ne_none cause
  obtain ⟨c, x, hfirst, rfl⟩ := exists_firstBreach_of_requiredFault? hindex h
  exact ⟨hfails, hearlier, .required hfirst⟩

theorem firstFailure_of_apFault?
    (hearlier : ∀ check < Check.applicationProcessors, registry.Meets check)
    (h : registry.apFault? = some cause) : registry.FirstFailure cause := by
  have hfails : ¬registry.Meets .applicationProcessors := by
    rw [meets_applicationProcessors_iff, h]
    exact Option.some_ne_none cause
  obtain ⟨c, x, hfirst, rfl⟩ := exists_firstBreach_of_apFault? h
  exact ⟨hfails, hearlier, .applicationProcessors hfirst⟩

theorem firstFailure_of_fault? (hindex : CapabilityIndex.build registry = .ok index)
    (h : registry.fault? index = some cause) : registry.FirstFailure cause := by
  -- One case for each rule that may be the first to fail, with those that passed before it.
  rcases fault?_eq_some_iff.mp h with
    horder | ⟨horder, hnamed | ⟨hnamed, hrequired | ⟨hrequired, hap⟩⟩⟩
  · exact firstFailure_of_capabilityOrderFault? (meets_of_lt_capabilityOrder hindex) horder
  · exact firstFailure_of_explicitFault? (meets_of_lt_named hindex horder) hnamed
  · exact firstFailure_of_requiredFault? hindex (meets_of_lt_required hindex horder hnamed)
      hrequired
  · exact firstFailure_of_apFault?
      (meets_of_lt_applicationProcessors hindex horder hnamed hrequired) hap

/-! ### Circles -/

theorem firstFailure_of_sort (hearlier : ∀ check < Check.circles, registry.Meets check)
    {phase : Phase}
    (hfirst : IsFirst (fun phase => ¬(registry.graphOf phase).Acyclic) Phase.all phase)
    (h : (registry.graphOf phase).sort = .error cause) : registry.FirstFailure cause := by
  obtain ⟨hcyclic, rfl⟩ :=
    (PhaseGraph.sort_eq_error_iff (registry.wellFormed_graphOf phase)).mp h
  have hfails : ¬registry.Meets .circles := fun hmeets => hcyclic (meets_circles_iff.mp hmeets phase)
  refine ⟨hfails, hearlier, .circle ?_ fun earlier hlt => ?_⟩
  · by_contra hnone
    exact hcyclic (acyclic_graphOf_iff.mpr (not_exists.mp hnone))
  · obtain ⟨before, after, hsplit, -, hbefore⟩ := hfirst
    have hacyclic := not_not.mp (hbefore earlier (Phase.mem_of_lt_of_split hsplit hlt))
    exact acyclic_graphOf_iff.mp hacyclic

end Registry

/-- Where scheduling fails, the cause is that of the first check that fails, and reports its first
breach. Once the rules about the whole registry are met, building a graph cannot fail: what is left
are circles. -/
theorem firstFailure_of_schedule {registry : Registry} {cause : PlanError}
    (h : (schedule registry).result = .error cause) :
    registry.FirstFailure cause ∧
      ∀ index, CapabilityIndex.build registry = .ok index → registry.fault? index = none →
        cause.check = .circles ∧
          ∀ phase, ∃ graph, (PhaseGraph.build registry index phase).result = .ok graph := by
  -- Only in the last case do all the rules about the whole registry hold.
  rcases schedule_eq_error_iff.mp h with
    ⟨own, hbuild, rfl⟩ | ⟨index, hindex, hfault | ⟨hsound, phase, hfirst, hsort⟩⟩
  · refine ⟨Registry.firstFailure_of_build hbuild, fun index hindex => ?_⟩
    cases hbuild.symm.trans hindex
  · refine ⟨Registry.firstFailure_of_fault? hindex hfault, fun index' hindex' hsound => ?_⟩
    cases hindex.symm.trans hindex'
    cases hfault.symm.trans hsound
  · refine ⟨Registry.firstFailure_of_sort (Registry.meets_of_lt_circles hindex hsound) hfirst
      hsort, fun index' hindex' hsound' => ⟨?_, fun phase => ?_⟩⟩
    · obtain ⟨-, rfl⟩ := (PhaseGraph.sort_eq_error_iff (registry.wellFormed_graphOf phase)).mp hsort
      rfl
    · exact ⟨_, build_eq_graphOf hindex' (Registry.dependenciesFault?_of_fault? hsound') phase⟩

/-- A registry that breaks four rules: two components name one that nobody defines, the first of
them also needs what nobody provides, so do application processors, and `bus` waits for itself. -/
def Registry.faulty : Registry where
  entries := [⟨.plain "log" .coreDevices, "devices.toml"⟩,
    ⟨{ Component.plain "timer" .coreDevices with
        dependsOn := .ofList [⟨"log"⟩, ⟨"ghost"⟩, ⟨"wraith"⟩], needs := .ofList [⟨"heap"⟩] },
      "devices.toml"⟩,
    ⟨{ Component.plain "bus" .coreDevices with
        dependsOn := .ofList [⟨"wraith"⟩, ⟨"bus"⟩]
        execution := .perCpu ⟨"start_bus", by decide⟩ ⟨"start_bus_ap", by decide⟩
          (.ofList [⟨"fpu"⟩]) },
      "devices.toml"⟩]
  nodup_ids := by decide

/-- A registry of which all is sound but for a circle in each of two phases, the later one of which
is listed first. -/
def Registry.circular : Registry where
  entries := [⟨{ Component.plain "bus" .coreDevices with dependsOn := .ofList [⟨"bus"⟩] },
      "devices.toml"⟩,
    ⟨{ Component.plain "pages" .memoryManagement with dependsOn := .ofList [⟨"frames"⟩] },
      "memory.toml"⟩,
    ⟨{ Component.plain "frames" .memoryManagement with
        dependsOn := .ofList [⟨"pages"⟩] }, "memory.toml"⟩]
  nodup_ids := by decide

theorem firstFailure_of_schedule_faulty :
    Registry.faulty.FirstFailure (.unknownDependency ⟨"timer"⟩ ⟨"ghost"⟩) ∧
      ∃ cycle unresolved,
        Registry.circular.FirstFailure (.dependencyCycle .memoryManagement cycle unresolved) ∧
          ∃ index, CapabilityIndex.build Registry.circular = .ok index ∧
            Registry.circular.fault? index = none := by
  have hfaulty : (schedule Registry.faulty).result =
      .error (.unknownDependency ⟨"timer"⟩ ⟨"ghost"⟩) := by decide
  have hcircular : (schedule Registry.circular).result = .error (.dependencyCycle .memoryManagement
      [⟨"pages"⟩, ⟨"frames"⟩] [⟨"pages"⟩, ⟨"frames"⟩]) := by decide
  exact ⟨(firstFailure_of_schedule hfaulty).1, _, _, (firstFailure_of_schedule hcircular).1,
    .empty, rfl, by decide⟩

end BootTable
