import BootTable.Proofs.Plan.Failure

/-!
# BootTable — which warnings scheduling gives

Warnings are given while graphs are built, and the graphs of the phases are built one after the
other: the warnings of a run are those of the phases whose graphs it builds, also where it fails
later. No graph is built before the checks about the whole registry have passed, and none after the
first circle.

* **`warnings_build`**: the warnings of one graph are the needs of its members that nothing
  provides.
* **`Registry.Builds`**: the phases whose graphs are built.
* **`warnings_eq_of_builds`**: the warnings of scheduling, over these phases.
* **`warnings_of_schedule`**: together with whom they concern, that none is repeated, and that a
  registry that has a plan leaves out none.
-/

namespace BootTable

open Relation

namespace Registry

variable {registry : Registry}

/-- Some component provides the capability. -/
def Provides (registry : Registry) (x : Capability) : Prop :=
  ∃ p ∈ registry.components, x ∈ p.provides

instance (registry : Registry) (x : Capability) : Decidable (registry.Provides x) :=
  inferInstanceAs (Decidable (∃ p ∈ registry.components, x ∈ p.provides))

/-- A component with each capability that it needs and that no component provides, in the order of
its needs. -/
def unprovidedNeeds (registry : Registry) (component : Component) :
    List (ComponentId × Capability) :=
  (component.needs.toList.filter fun x => ¬registry.Provides x).map fun x => (component.id, x)

/-- The needs of the members of a phase that no component provides, one member after the other. -/
def unprovidedIn (registry : Registry) (phase : Phase) : List (ComponentId × Capability) :=
  (registry.inPhase phase).flatMap registry.unprovidedNeeds

/-- In the phase, some component waits for itself, directly or through others. -/
def HasCircle (registry : Registry) (phase : Phase) : Prop :=
  ∃ component, TransGen (registry.LeadsIn phase) component component

/-- The phases whose graphs are built until scheduling ends, in their order. -/
inductive Builds (registry : Registry) : List Phase → Prop
  /-- Capabilities cannot be indexed. -/
  | unindexed {cause : RegistryError} (hindex : CapabilityIndex.build registry = .error cause) :
      registry.Builds []
  /-- A rule about the whole registry is broken. -/
  | broken {index : CapabilityIndex} {cause : PlanError}
      (hindex : CapabilityIndex.build registry = .ok index)
      (hfault : registry.fault? index = some cause) : registry.Builds []
  /-- All phases up to the first one that has a circle. -/
  | circle {index : CapabilityIndex} {before after : List Phase} {phase : Phase}
      (hindex : CapabilityIndex.build registry = .ok index)
      (hsound : registry.fault? index = none) (hsplit : Phase.all = before ++ phase :: after)
      (hbefore : ∀ earlier ∈ before, ¬registry.HasCircle earlier)
      (hcircle : registry.HasCircle phase) : registry.Builds (before ++ [phase])
  | all {index : CapabilityIndex} (hindex : CapabilityIndex.build registry = .ok index)
      (hsound : registry.fault? index = none) (hnone : ∀ phase, ¬registry.HasCircle phase) :
      registry.Builds Phase.all

theorem not_hasCircle_iff {phase : Phase} :
    ¬registry.HasCircle phase ↔ (registry.graphOf phase).Acyclic := by
  rw [acyclic_graphOf_iff]
  exact not_exists

theorem builds_sublist {phases : List Phase} (h : registry.Builds phases) :
    phases.Sublist Phase.all := by
  cases h with
  | unindexed hindex => exact List.nil_sublist _
  | broken hindex hfault => exact List.nil_sublist _
  | circle hindex hsound hsplit hbefore hcircle =>
    rw [hsplit]
    exact (List.Sublist.refl _).append (List.singleton_sublist.mpr List.mem_cons_self)
  | all hindex hsound hnone => exact List.Sublist.refl _

theorem exists_builds (registry : Registry) : ∃ phases, registry.Builds phases := by
  cases hindex : CapabilityIndex.build registry with
  | error cause => exact ⟨_, .unindexed hindex⟩
  | ok index =>
    cases hfault : registry.fault? index with
    | some cause => exact ⟨_, .broken hindex hfault⟩
    | none =>
      by_cases hnone : ∀ phase, ¬registry.HasCircle phase
      · exact ⟨_, .all hindex hfault hnone⟩
      · obtain ⟨phase, hcircle⟩ := Classical.not_forall.mp hnone
        obtain ⟨first, before, after, hsplit, hfirst, hbefore⟩ :=
          exists_isFirst (Phase.mem_all phase) (not_not.mp hcircle)
        exact ⟨_, .circle hindex hfault hsplit hbefore hfirst⟩

end Registry

/-! ## The warnings of one graph -/

section

variable {registry : Registry} {index : CapabilityIndex}
  (hindex : CapabilityIndex.build registry = .ok index)

include hindex

theorem map_missingNeeds_eq (component : Component) :
    (PhaseGraph.missingNeeds index component).map (fun x => (component.id, x)) =
      registry.unprovidedNeeds component := by
  unfold PhaseGraph.missingNeeds Registry.unprovidedNeeds
  congr 1
  apply List.filter_congr
  intro x _
  rw [CapabilityIndex.providers_of_build hindex, Bool.eq_iff_iff, List.isEmpty_iff,
    decide_eq_true_iff, List.eq_nil_iff_forall_not_mem]
  simp only [mem_providersAmong, Registry.Provides]
  constructor
  · rintro h ⟨p, hp, hprovides⟩
    exact h p.id ⟨p, hp, hprovides, rfl⟩
  · rintro h id ⟨p, hp, hprovides, -⟩
    exact h ⟨p, hp, hprovides⟩

theorem warnings_reportMissing (component : Component) :
    (Logged.reportAll (ε := PlanError) ((PhaseGraph.missingNeeds index component).map
      (.capabilityMissing component.id))).warnings = registry.unprovidedNeeds component := by
  rw [← map_missingNeeds_eq hindex]
  unfold Logged.warnings Logged.reportAll
  rw [List.filterMap_map]
  exact congrFun List.filterMap_eq_map _

theorem warnings_examine {members : List Component}
    (hnamed : ∀ component ∈ members, registry.dependenciesFault? component = none) :
    (PhaseGraph.examine registry index members).warnings =
      members.flatMap registry.unprovidedNeeds := by
  -- A member whose dependencies are sound gives its warnings and is not the last one looked at.
  induction members with
  | nil => rfl
  | cons component others ih =>
    rw [List.forall_mem_cons] at hnamed
    unfold PhaseGraph.examine
    rw [Logged.warnings_bind_of_ok (Logged.result_reject_eq_ok_iff.mpr hnamed.1),
      Logged.warnings_bind_of_ok rfl, Logged.warnings_reject, List.nil_append,
      warnings_reportMissing hindex, ih hnamed.2, List.flatMap_cons]

section

variable (hnamed : ∀ component ∈ registry.components, registry.dependenciesFault? component = none)

include hnamed

theorem warnings_build (phase : Phase) :
    (PhaseGraph.build registry index phase).warnings = registry.unprovidedIn phase := by
  unfold PhaseGraph.build
  rw [Logged.warnings_bind_of_silent _ fun _ => rfl]
  exact warnings_examine hindex fun component hmem =>
    hnamed component (Registry.mem_inPhase.mp hmem).1

/-! ## The phases one after the other -/

/-- To order a graph, or to find that it cannot be ordered, gives no warning. -/
theorem warnings_orderPhase (phase : Phase) :
    (orderPhase registry index phase).warnings = registry.unprovidedIn phase := by
  unfold orderPhase
  rw [Logged.warnings_bind_of_silent, warnings_build hindex hnamed]
  intro graph
  rw [Logged.warnings_bind_of_silent _ fun _ => rfl, Logged.warnings_ofExcept]

/-- Phases without a circle are ordered, and the others come after them. -/
theorem warnings_orderPhases_append {before : List Phase}
    (hbefore : ∀ phase ∈ before, ¬registry.HasCircle phase) (others : List Phase) :
    (orderPhases registry index (before ++ others)).warnings =
      before.flatMap registry.unprovidedIn ++ (orderPhases registry index others).warnings := by
  induction before with
  | nil => rfl
  | cons phase before ih =>
    rw [List.forall_mem_cons] at hbefore
    have horder := (orderPhase_eq_ok_iff hindex).mpr
      ⟨fun component hmem => hnamed component (Registry.mem_inPhase.mp hmem).1,
        Registry.not_hasCircle_iff.mp hbefore.1, rfl⟩
    rw [List.cons_append, orderPhases, Logged.warnings_bind_of_ok horder,
      warnings_orderPhase hindex hnamed, Logged.warnings_bind_of_silent _ fun _ => rfl,
      ih hbefore.2, List.flatMap_cons, List.append_assoc]

/-- The graph of a phase that has a circle is built before the circle is found. -/
theorem warnings_orderPhases_cons {phase : Phase} (hcircle : registry.HasCircle phase)
    (others : List Phase) :
    (orderPhases registry index (phase :: others)).warnings = registry.unprovidedIn phase := by
  have hsort := (PhaseGraph.sort_eq_error_iff (registry.wellFormed_graphOf phase)).mpr
    ⟨fun hacyclic => Registry.not_hasCircle_iff.mpr hacyclic hcircle, rfl⟩
  have horder := (orderPhase_eq_error_iff hindex hnamed).mpr hsort
  rw [orderPhases, Logged.warnings_bind_of_error horder, warnings_orderPhase hindex hnamed]

end

/-! ## Scheduling -/

/-- Indexing is the first stage of scheduling. -/
theorem result_indexed : (Logged.ofExcept ((CapabilityIndex.build registry).mapError
    PlanError.registry)).result = .ok index :=
  mapError_eq_ok_iff.mpr hindex

theorem warnings_schedule_of_fault? {cause : PlanError}
    (hfault : registry.fault? index = some cause) : (schedule registry).warnings = [] := by
  have hrejected : (Logged.reject (registry.fault? index)).result = .error cause :=
    Logged.result_reject_eq_error_iff.mpr hfault
  unfold schedule
  rw [Logged.warnings_bind_of_ok (result_indexed hindex), Logged.warnings_bind_of_ok rfl,
    Logged.warnings_bind_of_error hrejected, Logged.warnings_reject]
  rfl

theorem warnings_schedule_of_sound (hsound : registry.fault? index = none) :
    (schedule registry).warnings = (orderPhases registry index Phase.all).warnings := by
  have hpassed : (Logged.reject (registry.fault? index)).result = .ok () :=
    Logged.result_reject_eq_ok_iff.mpr hsound
  unfold schedule
  rw [Logged.warnings_bind_of_ok (result_indexed hindex), Logged.warnings_bind_of_ok rfl,
    Logged.warnings_bind_of_ok hpassed, Logged.warnings_bind_of_ok rfl,
    Logged.warnings_bind_of_silent _ fun _ => rfl, Logged.warnings_reject]
  rfl

end

theorem warnings_eq_of_builds {registry : Registry} {phases : List Phase}
    (h : registry.Builds phases) :
    (schedule registry).warnings = phases.flatMap registry.unprovidedIn := by
  cases h with
  | @unindexed cause hindex =>
    have hfailed : (Logged.ofExcept ((CapabilityIndex.build registry).mapError
        PlanError.registry)).result = .error (.registry cause) :=
      mapError_eq_error_iff.mpr ⟨cause, hindex, rfl⟩
    unfold schedule
    rw [Logged.warnings_bind_of_error hfailed]
    rfl
  | broken hindex hfault =>
    rw [warnings_schedule_of_fault? hindex hfault]
    rfl
  | @circle _ before after phase hindex hsound hsplit hbefore hcircle =>
    have hnamed := Registry.dependenciesFault?_of_fault? hsound
    rw [warnings_schedule_of_sound hindex hsound, hsplit,
      warnings_orderPhases_append hindex hnamed hbefore,
      warnings_orderPhases_cons hindex hnamed hcircle, List.flatMap_append, List.flatMap_singleton]
  | all hindex hsound hnone =>
    have hnamed := Registry.dependenciesFault?_of_fault? hsound
    rw [warnings_schedule_of_sound hindex hsound, ← List.append_nil Phase.all,
      warnings_orderPhases_append hindex hnamed fun phase _ => hnone phase, List.append_nil]
    exact List.append_nil _

/-! ## Whom warnings concern -/

namespace Registry

variable {registry : Registry}

theorem mem_unprovidedNeeds_iff {component : Component} {warning : ComponentId × Capability} :
    warning ∈ registry.unprovidedNeeds component ↔
      warning.1 = component.id ∧ warning.2 ∈ component.needs ∧ ¬registry.Provides warning.2 := by
  unfold unprovidedNeeds
  simp only [List.mem_map, List.mem_filter, DistinctList.mem_toList, decide_eq_true_eq]
  constructor
  · rintro ⟨x, ⟨hneeded, hunprovided⟩, rfl⟩
    exact ⟨rfl, hneeded, hunprovided⟩
  · rintro ⟨hid, hneeded, hunprovided⟩
    exact ⟨warning.2, ⟨hneeded, hunprovided⟩, by rw [← hid]⟩

theorem mem_unprovidedIn_iff {phase : Phase} {warning : ComponentId × Capability} :
    warning ∈ registry.unprovidedIn phase ↔
      ∃ c ∈ registry.components, c.phase = phase ∧ warning.1 = c.id ∧ warning.2 ∈ c.needs ∧
        ¬registry.Provides warning.2 := by
  unfold unprovidedIn
  simp only [List.mem_flatMap, mem_inPhase, mem_unprovidedNeeds_iff, and_assoc]

theorem nodup_unprovidedNeeds (component : Component) :
    (registry.unprovidedNeeds component).Nodup :=
  (component.needs.nodup.sublist List.filter_sublist).map (Prod.mk_right_injective component.id)

/-- A warning names its component, and a component stands in its phase once. -/
theorem nodup_unprovidedIn (registry : Registry) (phase : Phase) :
    (registry.unprovidedIn phase).Nodup := by
  unfold unprovidedIn
  rw [List.nodup_flatMap]
  refine ⟨fun component _ => nodup_unprovidedNeeds component, ?_⟩
  apply (List.pairwise_map.mp (registry.nodup_map_id_inPhase phase)).imp
  intro c d hne warning hc hd
  exact hne ((mem_unprovidedNeeds_iff.mp hc).1.symm.trans (mem_unprovidedNeeds_iff.mp hd).1)

theorem nodup_flatMap_unprovidedIn (registry : Registry) {phases : List Phase}
    (h : phases.Nodup) : (phases.flatMap registry.unprovidedIn).Nodup := by
  rw [List.nodup_flatMap]
  refine ⟨fun phase _ => registry.nodup_unprovidedIn phase, h.imp ?_⟩
  -- A component that two phases warned of would be a member of both.
  intro one other hne warning hone hother
  obtain ⟨c, hc, rfl, hcid, -⟩ := mem_unprovidedIn_iff.mp hone
  obtain ⟨d, hd, rfl, hdid, -⟩ := mem_unprovidedIn_iff.mp hother
  exact hne (congrArg Component.phase (eq_of_id_eq hc hd (hcid.symm.trans hdid)))

/-- No graph is built before the rules about the whole registry are met. -/
theorem Builds.exists_sound {phases : List Phase} {phase : Phase} (h : registry.Builds phases)
    (hmem : phase ∈ phases) :
    ∃ index, CapabilityIndex.build registry = .ok index ∧ registry.fault? index = none := by
  cases h with
  | unindexed hindex => cases hmem
  | broken hindex hfault => cases hmem
  | circle hindex hsound hsplit hbefore hcircle => exact ⟨_, hindex, hsound⟩
  | all hindex hsound hnone => exact ⟨_, hindex, hsound⟩

theorem Builds.required_eq_false {phases : List Phase} {phase : Phase} {component : Component}
    {x : Capability} (h : registry.Builds phases) (hphase : phase ∈ phases)
    (hmem : component ∈ registry.components) (hneeded : x ∈ component.needs)
    (hunprovided : ¬registry.Provides x) : component.required = false := by
  obtain ⟨index, hindex, hsound⟩ := h.exists_sound hphase
  have hrequired := (requiredFault?_eq_none_iff hindex).mp (fault?_eq_none_iff.mp hsound).2.2.1
  exact Bool.eq_false_iff.mpr fun htrue => hunprovided (hrequired component hmem htrue x hneeded)

/-- Where there is a plan, the graphs of all phases are built. -/
theorem Schedulable.builds_all (h : registry.Schedulable) : registry.Builds Phase.all := by
  have hindex : CapabilityIndex.build registry = .ok _ :=
    CapabilityIndex.build_eq_ok_iff.mpr ⟨h.numbered_once, rfl⟩
  exact .all hindex ((schedulable_iff hindex).mp h).1 fun phase hcircle =>
    not_hasCircle_iff.mpr (acyclic_graphOf_iff.mpr (h.acyclic phase)) hcircle

/-- What application processors need is provided where there is a plan, so what is not provided is
needed on all processors. -/
theorem Schedulable.mem_needs_of_mem_consumed (h : registry.Schedulable) {component : Component}
    (hmem : component ∈ registry.components) {x : Capability} (hneeded : x ∈ component.consumed)
    (hunprovided : ¬registry.Provides x) : x ∈ component.needs := by
  rcases Component.mem_consumed.mp hneeded with hneeds | hap
  · exact hneeds
  · obtain ⟨p, hp, hprovides, -⟩ := h.ap_initialized component hmem x hap
    exact absurd ⟨p, hp, hprovides⟩ hunprovided

end Registry

/-- The warnings of scheduling are the needs that nothing provides, of the components of the phases
whose graphs are built. They concern components that are not required, none is repeated, and a
registry that has a plan leaves out none. -/
theorem warnings_of_schedule (registry : Registry) :
    (∃ phases, registry.Builds phases) ∧
      (∀ phases, registry.Builds phases →
        (schedule registry).warnings = phases.flatMap registry.unprovidedIn) ∧
      (∀ warning ∈ (schedule registry).warnings, ∃ c ∈ registry.components,
        warning.1 = c.id ∧ c.required = false ∧ warning.2 ∈ c.needs ∧
          ¬registry.Provides warning.2) ∧
      (schedule registry).warnings.Nodup ∧
      ∀ plan, (schedule registry).result = .ok plan →
        ∀ c ∈ registry.components, c.required = false → ∀ x ∈ c.consumed,
          ¬registry.Provides x → (c.id, x) ∈ (schedule registry).warnings := by
  obtain ⟨phases, hbuilds⟩ := registry.exists_builds
  have hwarnings := warnings_eq_of_builds hbuilds
  refine ⟨⟨phases, hbuilds⟩, fun _ h => warnings_eq_of_builds h, ?_, ?_, ?_⟩
  · rw [hwarnings]
    intro warning hmem
    obtain ⟨phase, hphase, hin⟩ := List.mem_flatMap.mp hmem
    obtain ⟨c, hc, -, hid, hneeded, hunprovided⟩ := Registry.mem_unprovidedIn_iff.mp hin
    exact ⟨c, hc, hid, hbuilds.required_eq_false hphase hc hneeded hunprovided, hneeded,
      hunprovided⟩
  · rw [hwarnings]
    have hall : Phase.all.Nodup := by decide
    exact registry.nodup_flatMap_unprovidedIn (hall.sublist (Registry.builds_sublist hbuilds))
  · intro plan hplan c hc _ x hneeded hunprovided
    have hsound := (schedule_eq_ok_iff.mp hplan).1
    rw [warnings_eq_of_builds hsound.builds_all, List.mem_flatMap]
    exact ⟨c.phase, Phase.mem_all _, Registry.mem_unprovidedIn_iff.mpr
      ⟨c, hc, rfl, rfl, hsound.mem_needs_of_mem_consumed hc hneeded hunprovided, hunprovided⟩⟩

/-- Optional components of three phases whose needs nothing provides but for the heap. The phase of
the second one has a circle, so that the third one is never reached. -/
def Registry.underserved : Registry where
  entries := [⟨{ Component.plain "beacon" .smpBringup with
        required := false, needs := .ofList [⟨"radio"⟩] }, "devices.toml"⟩,
    ⟨{ Component.plain "screen" .coreDevices with
        required := false, needs := .ofList [⟨"font"⟩, ⟨"heap"⟩, ⟨"font"⟩, ⟨"theme"⟩] },
      "devices.toml"⟩,
    ⟨{ Component.plain "bus" .coreDevices with dependsOn := .ofList [⟨"bus"⟩] }, "devices.toml"⟩,
    ⟨{ Component.plain "pages" .memoryManagement with
        required := false, needs := .ofList [⟨"dma"⟩], provides := .ofList [⟨"heap"⟩] },
      "memory.toml"⟩]
  nodup_ids := by decide

/-- One optional component, which needs what nothing provides. -/
def Registry.optional : Registry where
  entries := [⟨{ Component.plain "beacon" .smpBringup with
    required := false, needs := .ofList [⟨"radio"⟩] }, "devices.toml"⟩]
  nodup_ids := by decide

theorem warnings_of_schedule_underserved :
    Registry.underserved.Builds [.cppInit, .processorEarly, .memoryManagement, .coreDevices] ∧
      (schedule Registry.underserved).warnings =
        [(⟨"pages"⟩, ⟨"dma"⟩), (⟨"screen"⟩, ⟨"font"⟩), (⟨"screen"⟩, ⟨"theme"⟩)] ∧
      (schedule Registry.underserved).warnings.Nodup ∧
      (⟨"beacon"⟩, ⟨"radio"⟩) ∈ (schedule Registry.optional).warnings := by
  have hfree : ∀ phase ∈ [Phase.cppInit, .processorEarly, .memoryManagement],
      ¬Registry.underserved.HasCircle phase := by
    intro phase hmem
    have hsort : ∃ order, (Registry.underserved.graphOf phase).sort = .ok order := by
      simp only [List.mem_cons, List.not_mem_nil, or_false] at hmem
      rcases hmem with rfl | rfl | rfl
      · exact ⟨[], by decide⟩
      · exact ⟨[], by decide⟩
      · exact ⟨[⟨"pages"⟩], by decide⟩
    obtain ⟨order, horder⟩ := hsort
    exact Registry.not_hasCircle_iff.mpr
      ((PhaseGraph.sort_eq_ok_iff (Registry.wellFormed_graphOf _ phase)).mp horder).1
  have hbus : Registry.underserved.HasCircle .coreDevices :=
    ⟨{ Component.plain "bus" .coreDevices with dependsOn := .ofList [⟨"bus"⟩] },
      .single ⟨by decide, by decide, .inl (by decide)⟩⟩
  have hbuilds := Registry.Builds.circle rfl (by decide) rfl hfree hbus
  have hplan : (schedule Registry.optional).result = .ok ⟨[⟨.cppInit, []⟩, ⟨.processorEarly, []⟩,
      ⟨.memoryManagement, []⟩, ⟨.coreDevices, []⟩, ⟨.smpBringup, [⟨"beacon"⟩]⟩]⟩ := by decide
  obtain ⟨-, hexact, -, hnodup, -⟩ := warnings_of_schedule Registry.underserved
  obtain ⟨-, -, -, -, hcomplete⟩ := warnings_of_schedule Registry.optional
  refine ⟨hbuilds, (hexact _ hbuilds).trans (by decide), hnodup, ?_⟩
  exact hcomplete _ hplan _ (List.mem_singleton_self _) rfl ⟨"radio"⟩ (by decide) (by decide)

end BootTable
