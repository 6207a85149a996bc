import BootTable.Proofs.Generate
import BootTable.Proofs.RelatedLists
import BootTable.Proofs.Registry.Loadable
import BootTable.Record.Draft

/-!
# BootTable — disabled records

A disabled record is passed over before its id and its fields are looked at. Sources with and
without it are loaded alike: to the same registry, or to the same failure; and whatever comes after
loading sees the registry alone.

* **`take_of_isDisabled`**: to pass over a record changes a count that no later definition reads.
* **`takeAll_of_omits`**: two runs that differ in disabled records keep the same registry.
* **`generate_of_omitsDisabled`**: the whole way.
-/

namespace BootTable

/-- The second source is the first one without some of its disabled records. -/
structure Source.OmitsDisabled (source other : Source) : Prop where
  origin_eq : source.origin = other.origin
  records : Omits (fun entry => Toml.Value.IsDisabledRecord entry.2) source.table other.table

theorem omits_definitionsOf {sources others : List Source}
    (h : List.Forall₂ Source.OmitsDisabled sources others) :
    Omits Definition.IsDisabled (definitionsOf sources) (definitionsOf others) := by
  refine Omits.flatMap (fun source other hsource => ?_) h
  unfold Source.definitions
  rw [hsource.origin_eq]
  exact hsource.records.map fun entry hdisabled => hdisabled

/-- Where two computations answer alike and go on alike from such answers, the whole ones answer
alike. -/
theorem bind_map_congr {ε α β γ δ : Type} {f : α → γ} {g : β → δ} {first second : Except ε α}
    {next after : α → Except ε β} (h : first.map f = second.map f)
    (hnext : ∀ a b, f a = f b → (next a).map g = (after b).map g) :
    (first >>= next).map g = (second >>= after).map g := by
  cases first with
  | error cause =>
    cases second with
    | error other =>
      cases h
      rfl
    | ok b => cases h
  | ok a =>
    cases second with
    | error other => cases h
    | ok b => exact hnext a b (Except.ok.inj h)

/-! ## Definitions one after the other -/

namespace Loading

variable {loading other : Loading}

/-- What is looked at in a definition is compared with the registry alone. -/
theorem take_congr (h : loading.registry = other.registry) (definition : Definition) :
    (loading.take definition).result.map registry =
      (other.take definition).result.map registry := by
  unfold take
  cases definition.enabledTable? with
  | error fault => rfl
  | ok table? =>
    cases table? with
    | none => exact congrArg Except.ok h
    | some table =>
      simp only
      unfold takeEnabled
      rw [h]
      cases other.registry.origin? definition.id with
      | some first => rfl
      | none =>
        cases componentOf definition.id table with
        | error fault => rfl
        | ok component => rfl

theorem take_of_isDisabled {definition : Definition} (h : definition.IsDisabled) :
    (loading.take definition).result = .ok { loading with disabled := loading.disabled + 1 } :=
  take_eq_ok_iff.mpr (.inl ⟨Definition.component?_eq_ok_none_iff_isDisabled.mpr h, rfl⟩)

theorem takeAll_of_omits {definitions others : List Definition}
    (h : Omits Definition.IsDisabled definitions others)
    (hregistry : loading.registry = other.registry) :
    (loading.takeAll definitions).result.map registry =
      (other.takeAll others).result.map registry := by
  -- Only the counts of the two runs come apart.
  induction h generalizing loading other with
  | nil => exact congrArg Except.ok hregistry
  | keep definition _ ih =>
    unfold takeAll
    rw [Logged.result_bind, Logged.result_bind]
    exact bind_map_congr (take_congr hregistry definition) fun _ _ hsame => ih hsame
  | drop hdisabled _ ih =>
    rw [takeAll, Logged.result_bind, take_of_isDisabled hdisabled]
    exact ih hregistry

theorem warnings_take (loading : Loading) (definition : Definition) :
    (loading.take definition).warnings = [] := by
  unfold take
  cases definition.enabledTable? with
  | error fault => rfl
  | ok table? =>
    cases table? with
    | none => rfl
    | some table =>
      simp only
      unfold takeEnabled
      cases loading.registry.origin? definition.id with
      | some first => rfl
      | none => cases componentOf definition.id table <;> rfl

theorem warnings_takeAll (loading : Loading) (definitions : List Definition) :
    (loading.takeAll definitions).warnings = [] := by
  induction definitions generalizing loading with
  | nil => rfl
  | cons definition others ih =>
    rw [takeAll, Logged.warnings_bind_of_silent _ fun next => ih next, warnings_take]

end Loading

/-! ## The whole way -/

/-- Loading gives no warnings, whether it succeeds or fails. -/
theorem warnings_load (sources : List Source) : (Registry.load sources).warnings = [] := by
  unfold Registry.load
  rw [Logged.warnings_bind_of_silent _ fun _ => rfl, Loading.warnings_takeAll]

theorem warnings_generate_of_load {sources : List Source} {registry : Registry}
    (h : (Registry.load sources).result = .ok registry) (config : TableConfig) :
    (generate sources config).warnings = (schedule registry).warnings := by
  have hload : ((Registry.load sources).mapError BuildError.registry).result = .ok registry :=
    mapError_eq_ok_iff.mpr h
  unfold generate
  rw [Logged.warnings_bind_of_ok hload, Logged.warnings_mapError, warnings_load, List.nil_append,
    Logged.warnings_bind_of_silent _ fun _ => rfl, Logged.warnings_mapError]

theorem warnings_generate_of_not_load {sources : List Source} {cause : RegistryError}
    (h : (Registry.load sources).result = .error cause) (config : TableConfig) :
    (generate sources config).warnings = [] := by
  have hload : ((Registry.load sources).mapError BuildError.registry).result =
      .error (.registry cause) := mapError_eq_error_iff.mpr ⟨cause, h, rfl⟩
  unfold generate
  rw [Logged.warnings_bind_of_error hload, Logged.warnings_mapError, warnings_load]

theorem load_of_omitsDisabled {sources others : List Source}
    (h : List.Forall₂ Source.OmitsDisabled sources others) :
    (Registry.load sources).result = (Registry.load others).result := by
  rw [result_load, result_load]
  exact Loading.takeAll_of_omits (omits_definitionsOf h) rfl

/-- Disabled records are as good as absent, whatever they hold: sources without them have the same
registry, the same schedule of it and the same text, or the same failure. -/
theorem generate_of_omitsDisabled {sources others : List Source}
    (h : List.Forall₂ Source.OmitsDisabled sources others) :
    (Registry.load sources).result = (Registry.load others).result ∧
      (Registry.load sources).result.map schedule = (Registry.load others).result.map schedule ∧
      ∀ config, (generate sources config).result = (generate others config).result ∧
        (generate sources config).warnings = (generate others config).warnings := by
  have hload := load_of_omitsDisabled h
  refine ⟨hload, congrArg _ hload, fun config => ⟨?_, ?_⟩⟩
  · rw [result_generate, result_generate, hload]
  · cases hsources : (Registry.load sources).result with
    | error cause =>
      rw [warnings_generate_of_not_load hsources,
        warnings_generate_of_not_load (hload.symm.trans hsources)]
    | ok registry =>
      rw [warnings_generate_of_load hsources,
        warnings_generate_of_load (hload.symm.trans hsources)]

/-- The id of a disabled record is taken by an enabled one in another source, and is named where no
enabled record has it. -/
theorem generate_of_omitsDisabled_bus :
    let withheld : Toml.Value := .table [("phase", .integer 7), ("disabled", .boolean true)]
    let bus := Draft.global "bus" "core_devices"
    let timer := (Draft.global "timer" "core_devices").dependsOn ["bus"]
    let devices : Source := ⟨"devices.toml", [("timer", .table timer.table), ("bus", withheld)]⟩
    let devices' : Source := ⟨"devices.toml", [("timer", .table timer.table)]⟩
    let boot : Source := ⟨"boot.toml", [("clock", withheld), ("bus", .table bus.table)]⟩
    let boot' : Source := ⟨"boot.toml", [("bus", .table bus.table)]⟩
    List.Forall₂ Source.OmitsDisabled [devices, boot] [devices', boot'] ∧
      (∃ text, (generate [devices, boot] .default).result = .ok text ∧
        (generate [devices', boot'] .default).result = .ok text) ∧
      (generate [devices] .default).result =
        .error (.plan (.unknownDependency ⟨"timer"⟩ ⟨"bus"⟩)) := by
  intro withheld bus timer devices devices' boot boot'
  have hdevices : Source.OmitsDisabled devices devices' :=
    ⟨rfl, .keep _ (.drop ⟨_, rfl, rfl⟩ .nil)⟩
  have hboot : Source.OmitsDisabled boot boot' := ⟨rfl, .drop ⟨_, rfl, rfl⟩ (.keep _ .nil)⟩
  have hboth := List.Forall₂.cons hdevices (.cons hboot .nil)
  refine ⟨hboth, ?_, ?_⟩
  · obtain ⟨text, htext⟩ : ∃ text, (generate [devices', boot'] .default).result = .ok text :=
      isOk_iff.mp (by decide +kernel)
    exact ⟨text, (((generate_of_omitsDisabled hboth).2.2 .default).1).trans htext, htext⟩
  · rw [((generate_of_omitsDisabled (.cons hdevices .nil)).2.2 .default).1]
    decide +kernel

end BootTable
