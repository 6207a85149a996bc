import BootTable.Proofs.Plan.Order
import BootTable.Proofs.Registry.FirstBreach

/-!
# BootTable — why a graph is not built

The names by which components depend on one another are checked twice: once for the whole registry,
in first-seen order, and once more while the graph of each phase is built, member by member. The
orders differ, but a component is in one phase only, and the first faulty one of all is the first
faulty one of its phase. So both checks pass together, and what the first one reports is what the
second one reports of that phase.

* **`Registry.MisnamesFirst`**: what is reported of the names that some components give.
* **`build_eq_error_iff`**: the graph of a phase fails on that and on nothing else.
* **`exists_build_of_explicitFault?`**: what is reported of the registry is reported of a phase.
* **`explicitFault?_iff_build`**: how the two checks agree.
-/

namespace BootTable

namespace Registry

variable {registry : Registry} {cause : PlanError}

/-- The cause is about the first name, of the first component that gives one, by which it names no
component of its phase. -/
inductive MisnamesFirst (registry : Registry) (members : List Component) : PlanError → Prop
  /-- The name is that of no component. -/
  | unknown {c : Component} {id : ComponentId}
      (hc : IsFirst (fun c => ∃ id ∈ c.dependsOn, registry.Misnames c id) members c)
      (hid : IsFirst (registry.Misnames c) c.dependsOn.toList id)
      (hunknown : ∀ p ∈ registry.components, p.id ≠ id) :
      registry.MisnamesFirst members (.unknownDependency c.id id)
  /-- The name is that of a component of another phase. -/
  | crossPhase {c p : Component}
      (hc : IsFirst (fun c => ∃ id ∈ c.dependsOn, registry.Misnames c id) members c)
      (hid : IsFirst (registry.Misnames c) c.dependsOn.toList p.id)
      (hp : p ∈ registry.components) (hphase : p.phase ≠ c.phase) :
      registry.MisnamesFirst members (.crossPhaseDependency c.id c.phase p.id p.phase)

theorem dependenciesFault?_of_isFirst {c : Component} {id : ComponentId}
    (hid : IsFirst (registry.Misnames c) c.dependsOn.toList id)
    (hfault : registry.dependencyFault? c id = some cause) :
    registry.dependenciesFault? c = some cause := by
  refine findSome?_of_isFirst (fun other _ hsound => ?_) hid hfault
  rw [dependencyFault?_eq_none_iff]
  exact not_not.mp hsound

theorem findSome?_dependenciesFault?_eq_some_iff {members : List Component} :
    members.findSome? registry.dependenciesFault? = some cause ↔
      registry.MisnamesFirst members cause := by
  have hsound (c : Component) (_ : c ∈ members) (h : ¬∃ id ∈ c.dependsOn, registry.Misnames c id) :
      registry.dependenciesFault? c = none :=
    dependenciesFault?_eq_none_iff_not_misnames.mpr h
  constructor
  · intro h
    obtain ⟨c, id, hc, hid, hfault⟩ := exists_isFirst_of_dependenciesFault? h
    rcases dependencyFault?_eq_some_iff.mp hfault with ⟨hunknown, rfl⟩ | ⟨p, hp, rfl, hphase, rfl⟩
    · exact .unknown hc hid hunknown
    · exact .crossPhase hc hid hp hphase
  · rintro (⟨hc, hid, hunknown⟩ | ⟨hc, hid, hp, hphase⟩)
    · refine findSome?_of_isFirst hsound hc (dependenciesFault?_of_isFirst hid ?_)
      exact dependencyFault?_eq_some_iff.mpr (.inl ⟨hunknown, rfl⟩)
    · refine findSome?_of_isFirst hsound hc (dependenciesFault?_of_isFirst hid ?_)
      exact dependencyFault?_eq_some_iff.mpr (.inr ⟨_, hp, rfl, hphase, rfl⟩)

theorem MisnamesFirst.exists_component {members : List Component}
    (h : registry.MisnamesFirst members cause) :
    ∃ c, cause.component? = some c.id ∧
      IsFirst (fun c => ∃ id ∈ c.dependsOn, registry.Misnames c id) members c := by
  cases h with
  | unknown hc => exact ⟨_, rfl, hc⟩
  | crossPhase hc => exact ⟨_, rfl, hc⟩

/-- What is reported of some components is reported as well of any of them that include the one that
it is about. -/
theorem MisnamesFirst.filter {members : List Component} {q : Component → Bool} {c : Component}
    (h : registry.MisnamesFirst members cause)
    (hc : IsFirst (fun c => ∃ id ∈ c.dependsOn, registry.Misnames c id) members c)
    (hkept : q c = true) : registry.MisnamesFirst (members.filter q) cause := by
  cases h with
  | unknown hown hid hunknown =>
    obtain rfl := hown.unique hc
    exact .unknown (hc.filter hkept) hid hunknown
  | crossPhase hown hid hp hphase =>
    obtain rfl := hown.unique hc
    exact .crossPhase (hc.filter hkept) hid hp hphase

end Registry

namespace PhaseGraph

variable {registry : Registry} {index : CapabilityIndex} {phase : Phase} {cause : PlanError}

theorem examine_eq_error_iff {members : List Component} :
    (examine registry index members).result = .error cause ↔
      members.findSome? registry.dependenciesFault? = some cause := by
  induction members with
  | nil => exact ⟨nofun, nofun⟩
  | cons component others ih =>
    unfold examine
    rw [List.findSome?_cons, Logged.result_bind_eq_error_iff, Logged.result_reject_eq_error_iff]
    cases registry.dependenciesFault? component with
    | some own =>
      constructor
      · rintro (hown | ⟨⟨⟩, hpassed, -⟩)
        · exact hown
        · cases hpassed
      · exact .inl
    | none =>
      constructor
      · rintro (hown | ⟨⟨⟩, -, hrest⟩)
        · cases hown
        · rcases Logged.result_bind_eq_error_iff.mp hrest with hreport | ⟨⟨⟩, -, hothers⟩
          · cases hreport
          · exact ih.mp hothers
      · intro hothers
        exact .inr ⟨(), rfl, Logged.result_bind_eq_error_iff.mpr (.inr ⟨(), rfl, ih.mpr hothers⟩)⟩

/-- Once the members are examined, nothing fails. -/
theorem build_eq_error_iff :
    (build registry index phase).result = .error cause ↔
      registry.MisnamesFirst (registry.inPhase phase) cause := by
  rw [← Registry.findSome?_dependenciesFault?_eq_some_iff]
  unfold build
  simp only [Logged.result_bind_eq_error_iff, examine_eq_error_iff]
  constructor
  · rintro (hexamined | ⟨⟨⟩, -, hreport | ⟨⟨⟩, -, hpure⟩⟩)
    · exact hexamined
    · cases hreport
    · cases hpure
  · exact .inl

theorem exists_build_of_explicitFault? (h : registry.explicitFault? = some cause) :
    ∃ c ∈ registry.components, cause.component? = some c.id ∧
      (build registry index c.phase).result = .error cause := by
  have hfirst := Registry.findSome?_dependenciesFault?_eq_some_iff.mp h
  obtain ⟨c, hnamed, hc⟩ := hfirst.exists_component
  -- Of the members of its phase, too, the component is the first one at fault.
  exact ⟨c, hc.mem, hnamed, build_eq_error_iff.mpr (hfirst.filter hc (decide_eq_true rfl))⟩

/-- The check of the whole registry passes exactly if the graph of each phase is built, whatever the
index of providers is. What it reports otherwise is what is reported of the phase of the component
that it is about. The graph of a phase fails for no other cause than the first name, of its first
member that gives one, by which the member names no component or one of another phase. -/
theorem explicitFault?_iff_build (registry : Registry) (index : CapabilityIndex) :
    (registry.explicitFault? = none ↔
        ∀ phase, ∃ graph, (build registry index phase).result = .ok graph) ∧
      (∀ cause, registry.explicitFault? = some cause →
        ∃ c ∈ registry.components, cause.component? = some c.id ∧
          (build registry index c.phase).result = .error cause) ∧
      ∀ phase cause, (build registry index phase).result = .error cause ↔
        registry.MisnamesFirst (registry.inPhase phase) cause := by
  refine ⟨⟨fun hsound phase => ?_, fun hbuilt => ?_⟩,
    fun cause => exists_build_of_explicitFault?, fun phase cause => build_eq_error_iff⟩
  · have hall := List.findSome?_eq_none_iff.mp hsound
    exact ⟨_, build_eq_ok_iff_graphBy.mpr
      ⟨fun c hmem => hall c (Registry.mem_inPhase.mp hmem).1, rfl⟩⟩
  · refine List.findSome?_eq_none_iff.mpr fun c hmem => ?_
    obtain ⟨graph, hgraph⟩ := hbuilt c.phase
    exact (build_eq_ok_iff_graphBy.mp hgraph).1 c (Registry.mem_inPhase.mpr ⟨hmem, rfl⟩)

end PhaseGraph

/-- Three components with faulty names in two phases: the first one seen is of the later phase. -/
def Registry.misnaming : Registry where
  entries := [⟨.plain "log" .coreDevices, "devices.toml"⟩,
    ⟨{ Component.plain "bus" .coreDevices with dependsOn := .ofList [⟨"log"⟩, ⟨"pages"⟩] },
      "devices.toml"⟩,
    ⟨{ Component.plain "pages" .memoryManagement with dependsOn := .ofList [⟨"frames"⟩] },
      "memory.toml"⟩,
    ⟨{ Component.plain "timer" .coreDevices with dependsOn := .ofList [⟨"ghost"⟩] },
      "devices.toml"⟩]
  nodup_ids := by decide

theorem PhaseGraph.explicitFault?_iff_build_misnaming :
    (∃ c ∈ Registry.misnaming.components, c.id = ⟨"bus"⟩ ∧
        (build .misnaming .empty c.phase).result =
          .error (.crossPhaseDependency ⟨"bus"⟩ .coreDevices ⟨"pages"⟩ .memoryManagement)) ∧
      (¬∀ phase, ∃ graph, (build .misnaming .empty phase).result = .ok graph) ∧
      Registry.misnaming.MisnamesFirst (Registry.misnaming.inPhase .memoryManagement)
        (.unknownDependency ⟨"pages"⟩ ⟨"frames"⟩) := by
  obtain ⟨hagree, hregistry, hphase⟩ := explicitFault?_iff_build .misnaming .empty
  have hfault : Registry.misnaming.explicitFault? =
      some (.crossPhaseDependency ⟨"bus"⟩ .coreDevices ⟨"pages"⟩ .memoryManagement) := by
    decide
  have herror : (build .misnaming .empty .memoryManagement).result =
      .error (.unknownDependency ⟨"pages"⟩ ⟨"frames"⟩) := by
    decide
  obtain ⟨c, hmem, hnamed, hbuild⟩ := hregistry _ hfault
  refine ⟨⟨c, hmem, (Option.some.inj hnamed).symm, hbuild⟩, fun hbuilt => ?_,
    (hphase _ _).mp herror⟩
  cases hfault.symm.trans (hagree.mpr hbuilt)

end BootTable
