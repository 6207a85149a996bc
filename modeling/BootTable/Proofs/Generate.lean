import BootTable.Generate
import BootTable.Proofs.Plan.Order
import BootTable.Proofs.Registry.Load

/-!
# BootTable — the text of the sources

The whole way from sources to text succeeds exactly if the sources load to a registry that has a
plan, and the text is then a function of the registry. Of its order, only the one inside each phase
counts.

* **`result_generate`**: the answer or failure depends on the loaded registry alone.
* **`generate_eq_ok_iff`**: the whole way as one statement.
* **`generate_eq_of_inPhase_eq`**: registries that agree phase by phase have the same plans and the
  same text, however phases and sources are interleaved.
-/

namespace BootTable

/-- The text of the plan of a registry that has one. -/
def Registry.textOf (registry : Registry) (config : TableConfig) : String :=
  TableText.render (flatten registry.planOf registry) config

theorem result_generate (sources : List Source) (config : TableConfig) :
    (generate sources config).result = (do
      let registry ← (Registry.load sources).result.mapError .registry
      let plan ← (schedule registry).result.mapError .plan
      return TableText.render (flatten plan registry) config) := by
  unfold generate
  simp only [Logged.result_bind]
  rfl

theorem generate_eq_ok_iff {sources : List Source} {config : TableConfig} {text : String} :
    (generate sources config).result = .ok text ↔
      ∃ registry, (Registry.load sources).result = .ok registry ∧ registry.Schedulable ∧
        text = registry.textOf config := by
  unfold generate Registry.textOf
  simp only [Logged.result_bind_eq_ok_iff, Logged.result_mapError_eq_ok_iff, schedule_eq_ok_iff,
    Logged.result_report, Logged.result_pure, Except.ok.injEq]
  constructor
  · rintro ⟨registry, hload, plan, ⟨hsound, rfl⟩, _, -, _, -, htext⟩
    exact ⟨registry, hload, hsound, htext.symm⟩
  · rintro ⟨registry, hload, hsound, htext⟩
    exact ⟨registry, hload, _, ⟨hsound, rfl⟩, (), trivial, (), trivial, htext.symm⟩

theorem flatten_congr {registry other : Registry} (h : registry.find? = other.find?)
    (plan : Plan) : flatten plan registry = flatten plan other := by
  unfold flatten phaseEntries
  rw [h]

namespace Registry

variable {registry other : Registry}

theorem textOf_eq_of_inPhase_eq (h : ∀ phase, registry.inPhase phase = other.inPhase phase)
    (config : TableConfig) : registry.textOf config = other.textOf config := by
  unfold textOf
  rw [planOf_eq_of_inPhase_eq h, flatten_congr (find?_eq_of_inPhase_eq h)]

theorem schedule_eq_ok_iff_of_inPhase_eq
    (h : ∀ phase, registry.inPhase phase = other.inPhase phase) {plan : Plan} :
    (schedule registry).result = .ok plan ↔ (schedule other).result = .ok plan := by
  have hsame := mem_components_congr h
  rw [schedule_eq_ok_iff, schedule_eq_ok_iff, planOf_eq_of_inPhase_eq h]
  constructor
  · rintro ⟨hsound, hplan⟩
    exact ⟨hsound.of_mem_iff hsame, hplan⟩
  · rintro ⟨hsound, hplan⟩
    exact ⟨hsound.of_mem_iff fun component => (hsame component).symm, hplan⟩

end Registry

/-- Registries that agree phase by phase have the same plans, and their sources the same text. -/
theorem generate_eq_of_inPhase_eq {sources others : List Source} {registry other : Registry}
    (hload : (Registry.load sources).result = .ok registry)
    (hother : (Registry.load others).result = .ok other)
    (h : ∀ phase, registry.inPhase phase = other.inPhase phase) :
    (∀ plan, (schedule registry).result = .ok plan ↔ (schedule other).result = .ok plan) ∧
      ∀ plan, (schedule registry).result = .ok plan → ∀ config, ∃ text,
        (generate sources config).result = .ok text ∧
          (generate others config).result = .ok text := by
  have hplans {plan : Plan} :
      (schedule registry).result = .ok plan ↔ (schedule other).result = .ok plan :=
    Registry.schedule_eq_ok_iff_of_inPhase_eq h
  refine ⟨fun plan => hplans, fun plan hplan config => ⟨registry.textOf config, ?_, ?_⟩⟩
  · exact generate_eq_ok_iff.mpr ⟨registry, hload, (schedule_eq_ok_iff.mp hplan).1, rfl⟩
  · exact generate_eq_ok_iff.mpr ⟨other, hother, (schedule_eq_ok_iff.mp (hplans.mp hplan)).1,
      Registry.textOf_eq_of_inPhase_eq h config⟩

/-- A source of components that run once and neither provide nor need anything. -/
def Source.plain (origin : String) (components : List (String × Phase)) : Source where
  origin := origin
  table := components.map fun entry =>
    (entry.1, .table [("name", .text entry.1), ("required", .boolean true),
      ("per_cpu", .boolean false), ("phase", .text entry.2.key), ("routine", .text "initialize")])

theorem generate_eq_of_inPhase_eq_interleaved : ∃ text,
    (generate [.plain "memory.toml" [("pages", .memoryManagement), ("bus", .coreDevices)],
      .plain "timer.toml" [("timer", .coreDevices)]] .default).result = .ok text ∧
    (generate [.plain "devices.toml" [("bus", .coreDevices), ("timer", .coreDevices),
      ("pages", .memoryManagement)]] .default).result = .ok text := by
  let sources : List Source :=
    [.plain "memory.toml" [("pages", .memoryManagement), ("bus", .coreDevices)],
      .plain "timer.toml" [("timer", .coreDevices)]]
  let others : List Source :=
    [.plain "devices.toml" [("bus", .coreDevices), ("timer", .coreDevices),
      ("pages", .memoryManagement)]]
  let registry : Registry :=
    ⟨[⟨.plain "pages" .memoryManagement, "memory.toml"⟩, ⟨.plain "bus" .coreDevices, "memory.toml"⟩,
      ⟨.plain "timer" .coreDevices, "timer.toml"⟩], by decide⟩
  let other : Registry :=
    ⟨[⟨.plain "bus" .coreDevices, "devices.toml"⟩, ⟨.plain "timer" .coreDevices, "devices.toml"⟩,
      ⟨.plain "pages" .memoryManagement, "devices.toml"⟩], by decide⟩
  let plan : Plan := ⟨[⟨.cppInit, []⟩, ⟨.processorEarly, []⟩, ⟨.memoryManagement, [⟨"pages"⟩]⟩,
    ⟨.coreDevices, [⟨"bus"⟩, ⟨"timer"⟩]⟩, ⟨.smpBringup, []⟩]⟩
  have hload : (Registry.load sources).result = .ok registry := by decide +kernel
  have hother : (Registry.load others).result = .ok other := by decide +kernel
  have hplan : (schedule registry).result = .ok plan := by decide +kernel
  have hphases : ∀ phase, registry.inPhase phase = other.inPhase phase := by
    intro phase
    cases phase <;> decide +kernel
  exact (generate_eq_of_inPhase_eq hload hother hphases).2 plan hplan .default

end BootTable
