import BootTable.Capability
import BootTable.Phase
import BootTable.Text.Quoted

/-!
# BootTable — the log

Every stage reports what it did as events, in the order in which it did it. `Logged` is the answer
of a stage together with its events: a stage that fails keeps the events up to its failure.
-/

namespace BootTable

/-- How much an event matters. -/
inductive Level where
  | warn
  | info
  | debug
  | trace
deriving DecidableEq, Repr

def Level.name : Level → String
  | warn => "WARN"
  | info => "INFO"
  | debug => "DEBUG"
  | trace => "TRACE"

/-- The value of one field of an event. -/
inductive FieldValue where
  /-- A text that the log shows as it is. -/
  | plain (text : String)
  | quoted (text : String)
  | count (n : Nat)
  | flag (truth : Bool)
  | names (texts : List String)
deriving DecidableEq, Repr

def FieldValue.shown : FieldValue → String
  | plain text => text
  | quoted text => Text.quoted text
  | count n => Text.decimal 1 n
  | flag truth => if truth then "true" else "false"
  | names texts => Text.quotedList texts

/-- Something that a stage reports. -/
inductive Event where
  | componentSkipped (id : ComponentId) (origin : String)
  | componentLoaded (id : ComponentId) (phase : Phase) (perCpu : Bool)
  | registryLoaded (components disabled : Nat)
  | indexBuilt (capabilities : Nat)
  | registryValidated (components : Nat)
  | capabilityMissing (component : ComponentId) (capability : Capability)
  | graphBuilt (phase : Phase) (nodes edges : Nat)
  | phaseOrdered (phase : Phase) (order : List ComponentId)
  | planScheduled (components : Nat)
  /-- The plan was turned into table entries; from the given one on, processors are numbered. -/
  | sequenceFlattened (entries : Nat) (apIdFrom : Option Nat)
  | tableGenerated (sources components entries : Nat)
  | definitionsRead (path : String) (records : Nat)
  | fileReplaced (path : String) (bytes : Nat)
  | tableWritten (path : String)
  /-- The definitions make a table, which was not to be written. -/
  | registryAccepted
deriving DecidableEq, Repr

namespace Event

def level : Event → Level
  | capabilityMissing .. => .warn
  | registryLoaded .. | planScheduled .. | tableGenerated .. | tableWritten .. | registryAccepted =>
    .info
  | graphBuilt .. => .trace
  | _ => .debug

def message : Event → String
  | componentSkipped .. => "skipping disabled component"
  | componentLoaded .. => "loaded component"
  | registryLoaded .. => "component registry loaded"
  | indexBuilt .. => "capability index built"
  | registryValidated .. => "registry-wide validation passed"
  | capabilityMissing .. => "capability not found in component registry"
  | graphBuilt .. => "phase graph built"
  | phaseOrdered .. => "phase ordered"
  | planScheduled .. => "boot plan scheduled"
  | sequenceFlattened .. => "boot sequence flattened"
  | tableGenerated .. => "init table generated"
  | definitionsRead .. => "definition file parsed"
  | fileReplaced .. => "artifact written"
  | tableWritten .. => "init table written"
  | registryAccepted => "component registry is valid"

def fields : Event → List (String × FieldValue)
  | componentSkipped id origin => [("component", .quoted id.name), ("origin", .plain origin)]
  | componentLoaded id phase perCpu =>
    [("component", .quoted id.name), ("phase", .plain phase.key), ("per_cpu", .flag perCpu)]
  | registryLoaded components disabled =>
    [("components", .count components), ("disabled", .count disabled)]
  | indexBuilt capabilities => [("capabilities", .count capabilities)]
  | registryValidated components => [("components", .count components)]
  | capabilityMissing component capability =>
    [("component", .plain component.name), ("capability", .plain capability.name)]
  | graphBuilt phase nodes edges =>
    [("phase", .plain phase.key), ("nodes", .count nodes), ("edges", .count edges)]
  | phaseOrdered phase order =>
    [("phase", .plain phase.key), ("order", .names (order.map (·.name)))]
  | planScheduled components => [("components", .count components)]
  | sequenceFlattened entries apIdFrom =>
    ("entries", .count entries) :: (apIdFrom.map fun n => ("ap_id_from", .count n)).toList
  | tableGenerated sources components entries =>
    [("sources", .count sources), ("components", .count components), ("entries", .count entries)]
  | definitionsRead path records => [("path", .plain path), ("records", .count records)]
  | fileReplaced path bytes => [("path", .plain path), ("bytes", .count bytes)]
  | tableWritten path => [("path", .plain path)]
  | registryAccepted => []

def line (event : Event) : String :=
  event.level.name ++ " " ++ event.message
    ++ String.join (event.fields.map fun field => " " ++ field.1 ++ "=" ++ field.2.shown)

/-- The component and the capability of a warning. -/
def warning? : Event → Option (ComponentId × Capability)
  | capabilityMissing component capability => some (component, capability)
  | _ => none

end Event

/-- A combined computation succeeds exactly if both of its parts do. -/
theorem bind_eq_ok_iff {ε α β : Type} {first : Except ε α} {next : α → Except ε β} {b : β} :
    (first >>= next) = .ok b ↔ ∃ a, first = .ok a ∧ next a = .ok b := by
  cases first with
  | error cause => exact ⟨nofun, fun ⟨_, h, _⟩ => nomatch h⟩
  | ok a =>
    constructor
    · intro h
      exact ⟨a, rfl, h⟩
    · rintro ⟨a', h, hnext⟩
      cases h
      exact hnext

/-- A combined computation fails where its first part that fails does. -/
theorem bind_eq_error_iff {ε α β : Type} {first : Except ε α} {next : α → Except ε β}
    {cause : ε} :
    (first >>= next) = .error cause ↔
      first = .error cause ∨ ∃ a, first = .ok a ∧ next a = .error cause := by
  cases first with
  | error own =>
    constructor
    · intro h
      cases h
      exact .inl rfl
    · rintro (h | ⟨a, h, -⟩)
      · cases h
        rfl
      · cases h
  | ok a =>
    constructor
    · intro h
      exact .inr ⟨a, rfl, h⟩
    · rintro (h | ⟨a', h, hnext⟩)
      · cases h
      · cases h
        exact hnext

theorem isOk_iff {ε α : Type} {result : Except ε α} :
    result.isOk = true ↔ ∃ a, result = .ok a := by
  cases result with
  | error cause => exact ⟨nofun, nofun⟩
  | ok a => exact ⟨fun _ => ⟨a, rfl⟩, fun _ => rfl⟩

/-- To state a failure in other terms keeps what succeeds. -/
theorem mapError_eq_ok_iff {ε ε' α : Type} {f : ε → ε'} {result : Except ε α} {a : α} :
    result.mapError f = .ok a ↔ result = .ok a := by
  cases result with
  | error cause => exact ⟨nofun, nofun⟩
  | ok b =>
    show Except.ok b = .ok a ↔ Except.ok b = .ok a
    rw [Except.ok.injEq, Except.ok.injEq]

theorem mapError_eq_error_iff {ε ε' α : Type} {f : ε → ε'} {result : Except ε α} {cause : ε'} :
    result.mapError f = .error cause ↔ ∃ own, result = .error own ∧ f own = cause := by
  cases result with
  | error own =>
    show Except.error (f own) = .error cause ↔ ∃ own', Except.error own = .error own' ∧ f own' = cause
    simp
  | ok a => exact ⟨nofun, fun ⟨_, h, _⟩ => nomatch h⟩

theorem map_eq_ok_iff {ε α β : Type} {f : α → β} {result : Except ε α} {b : β} :
    result.map f = .ok b ↔ ∃ a, result = .ok a ∧ f a = b := by
  cases result with
  | error cause => exact ⟨nofun, fun ⟨_, h, _⟩ => nomatch h⟩
  | ok a =>
    show Except.ok (f a) = .ok b ↔ ∃ a', Except.ok a = .ok a' ∧ f a' = b
    simp

theorem map_eq_error_iff {ε α β : Type} {f : α → β} {result : Except ε α} {cause : ε} :
    result.map f = .error cause ↔ result = .error cause := by
  cases result with
  | error own =>
    show Except.error own = .error cause ↔ Except.error own = .error cause
    rw [Except.error.injEq, Except.error.injEq]
  | ok a => exact ⟨nofun, nofun⟩

/-- The answer of a stage, or the cause of its failure, and the events up to it. -/
structure Logged (ε α : Type) where
  events : List Event
  result : Except ε α

namespace Logged

variable {ε α β : Type}

def answer (a : α) : Logged ε α := ⟨[], .ok a⟩

def fail (cause : ε) : Logged ε α := ⟨[], .error cause⟩

def report (event : Event) : Logged ε Unit := ⟨[event], .ok ()⟩

def reportAll (events : List Event) : Logged ε Unit := ⟨events, .ok ()⟩

def reject : Option ε → Logged ε Unit
  | none => answer ()
  | some cause => fail cause

/-- Takes over an answer or a failure that comes without events. -/
def ofExcept (result : Except ε α) : Logged ε α := ⟨[], result⟩

/-- Goes on with the answer of a stage, if it has one, and puts the events one after the other. -/
def andThen (first : Logged ε α) (next : α → Logged ε β) : Logged ε β :=
  match first.result with
  | .error cause => ⟨first.events, .error cause⟩
  | .ok a => ⟨first.events ++ (next a).events, (next a).result⟩

instance : Monad (Logged ε) where
  pure := answer
  bind := andThen

/-- States the cause of a failure in other terms. -/
def mapError {ε' : Type} (f : ε → ε') (stage : Logged ε α) : Logged ε' α :=
  ⟨stage.events, stage.result.mapError f⟩

/-- States the answer in other terms. -/
def map (f : α → β) (stage : Logged ε α) : Logged ε β :=
  ⟨stage.events, stage.result.map f⟩

def warnings (stage : Logged ε α) : List (ComponentId × Capability) :=
  stage.events.filterMap Event.warning?

/-! ## Answers and events of combined stages -/

@[simp] theorem result_pure (a : α) : (pure a : Logged ε α).result = .ok a := rfl

@[simp] theorem events_pure (a : α) : (pure a : Logged ε α).events = [] := rfl

@[simp] theorem result_fail (cause : ε) : (fail cause : Logged ε α).result = .error cause := rfl

@[simp] theorem result_ofExcept (result : Except ε α) : (ofExcept result).result = result := rfl

@[simp] theorem result_bind (first : Logged ε α) (next : α → Logged ε β) :
    (first >>= next).result = first.result >>= fun a => (next a).result := by
  show (andThen first next).result = _
  unfold andThen
  cases first.result <;> rfl

@[simp] theorem result_report (event : Event) : (report event : Logged ε Unit).result = .ok () :=
  rfl

@[simp] theorem result_reportAll (events : List Event) :
    (reportAll events : Logged ε Unit).result = .ok () := rfl

theorem result_reject_eq_ok_iff {cause? : Option ε} :
    (reject cause?).result = .ok () ↔ cause? = none := by
  cases cause? with
  | none => exact ⟨fun _ => rfl, fun _ => rfl⟩
  | some cause => simp [reject]

theorem result_bind_eq_ok_iff {first : Logged ε α} {next : α → Logged ε β} {b : β} :
    (first >>= next).result = .ok b ↔ ∃ a, first.result = .ok a ∧ (next a).result = .ok b := by
  rw [result_bind, bind_eq_ok_iff]

theorem result_reject_eq_error_iff {cause? : Option ε} {cause : ε} :
    (reject cause?).result = .error cause ↔ cause? = some cause := by
  cases cause? with
  | none => exact ⟨nofun, nofun⟩
  | some own => simp [reject]

theorem result_bind_eq_error_iff {first : Logged ε α} {next : α → Logged ε β} {cause : ε} :
    (first >>= next).result = .error cause ↔
      first.result = .error cause ∨ ∃ a, first.result = .ok a ∧ (next a).result = .error cause := by
  rw [result_bind, bind_eq_error_iff]

theorem result_mapError_eq_ok_iff {ε' : Type} {f : ε → ε'} {stage : Logged ε α} {a : α} :
    (stage.mapError f).result = .ok a ↔ stage.result = .ok a :=
  mapError_eq_ok_iff

theorem result_mapError_eq_error_iff {ε' : Type} {f : ε → ε'} {stage : Logged ε α} {cause : ε'} :
    (stage.mapError f).result = .error cause ↔ ∃ own, stage.result = .error own ∧ f own = cause :=
  mapError_eq_error_iff

theorem events_bind_of_ok {first : Logged ε α} {a : α} (h : first.result = .ok a)
    (next : α → Logged ε β) : (first >>= next).events = first.events ++ (next a).events := by
  show (andThen first next).events = _
  simp [andThen, h]

theorem events_bind_of_error {first : Logged ε α} {cause : ε} (h : first.result = .error cause)
    (next : α → Logged ε β) : (first >>= next).events = first.events := by
  show (andThen first next).events = _
  simp [andThen, h]

/-! ### Answers in other terms -/

theorem map_bind {γ : Type} (f : β → γ) (first : Logged ε α) (next : α → Logged ε β) :
    (first >>= next).map f = first >>= fun a => (next a).map f := by
  show (andThen first next).map f = andThen first fun a => (next a).map f
  unfold andThen
  cases first.result <;> rfl

theorem bind_map_left {γ : Type} (f : α → β) (first : Logged ε α) (next : β → Logged ε γ) :
    first.map f >>= next = first >>= fun a => next (f a) := by
  show andThen (first.map f) next = andThen first fun a => next (f a)
  obtain ⟨events, result⟩ := first
  cases result <;> rfl

/-! ### Warnings -/

theorem warnings_bind_of_ok {first : Logged ε α} {a : α} (h : first.result = .ok a)
    (next : α → Logged ε β) : (first >>= next).warnings = first.warnings ++ (next a).warnings := by
  unfold warnings
  rw [events_bind_of_ok h, List.filterMap_append]

theorem warnings_bind_of_error {first : Logged ε α} {cause : ε} (h : first.result = .error cause)
    (next : α → Logged ε β) : (first >>= next).warnings = first.warnings := by
  unfold warnings
  rw [events_bind_of_error h]

/-- What gives no warning, whatever it goes on with, adds none. -/
theorem warnings_bind_of_silent (first : Logged ε α) {next : α → Logged ε β}
    (hnext : ∀ a, (next a).warnings = []) : (first >>= next).warnings = first.warnings := by
  cases hfirst : first.result with
  | error cause => rw [warnings_bind_of_error hfirst]
  | ok a => rw [warnings_bind_of_ok hfirst, hnext, List.append_nil]

@[simp] theorem warnings_ofExcept (result : Except ε α) : (ofExcept result).warnings = [] := rfl

@[simp] theorem warnings_reject (cause? : Option ε) : (reject cause?).warnings = [] := by
  cases cause? <;> rfl

@[simp] theorem warnings_mapError {ε' : Type} (f : ε → ε') (stage : Logged ε α) :
    (stage.mapError f).warnings = stage.warnings := rfl

end Logged

end BootTable
