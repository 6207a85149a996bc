import BootTable.Component
import BootTable.Record.Fault
import BootTable.Record.Schema

/-!
# BootTable — component records

A record is a table whose fields have the right kinds. Reading one checks its keys, then its
values; normalizing it unifies its routines, resolves its keys and drops repeated list entries.
The first fault in that order is the one reported.
-/

namespace BootTable

/-- A definition record whose fields have the right kinds. -/
structure Record where
  name : String
  /-- Whether the needs of the component are mandatory. -/
  required : Bool
  perCpu : Bool
  phase : String
  /-- The routine of a global component, or of both kinds of processor. -/
  routine : Option String
  bootstrapRoutine : Option String
  apRoutine : Option String
  provides : List String
  dependsOn : List String
  needs : List String
  /-- The capabilities that only application processors need; an empty list differs from none. -/
  apNeeds : Option (List String)
  importance : Option String
  disabled : Bool
deriving DecidableEq, Repr

namespace Record

/-! ## Reading -/

/-- The record that a table stands for, by the kinds of its values alone. -/
def decode (table : Toml.Table) : Except Toml.FieldFault Record :=
  match table.fieldFault? fun key => (Field.ofKey? key).map Field.shape with
  | some fault => .error fault
  | none => do
    let name ← Toml.Table.demand "name" (table.text? "name")
    let required ← Toml.Table.demand "required" (table.flag? "required")
    let perCpu ← Toml.Table.demand "per_cpu" (table.flag? "per_cpu")
    let phase ← Toml.Table.demand "phase" (table.text? "phase")
    return {
      name, required, perCpu, phase
      routine := table.text? "routine"
      bootstrapRoutine := table.text? "bootstrap_routine"
      apRoutine := table.text? "ap_routine"
      provides := (table.texts? "provides_capabilities").getD []
      dependsOn := (table.texts? "depends_on").getD []
      needs := (table.texts? "depends_on_capabilities").getD []
      apNeeds := table.texts? "ap_depends_on_capabilities"
      importance := table.text? "logging_importance"
      disabled := (table.flag? "disabled").getD false }

/-- The required keys that a table lacks, in the order of the schema. -/
def missingKeys (table : Toml.Table) : List String :=
  requiredKeys.filter fun key => !table.hasKey key

/-- The keys of a table that the schema does not have, in document order. -/
def unknownKeys (table : Toml.Table) : List String :=
  table.keys.filter fun key => !requiredKeys.contains key && !optionalKeys.contains key

/-- The record that a table stands for. The keys are checked before the values. -/
def ofTable (table : Toml.Table) : Except Fault Record :=
  if missingKeys table ≠ [] then .error (.missingKeys (missingKeys table))
  else if unknownKeys table ≠ [] then .error (.unknownKeys (unknownKeys table))
  else (decode table).mapError fun fault => .invalidField (fault.message Field.keys)

/-! ## Normalizing -/

/-- The references to the routine of the bootstrap processor and to that of application
processors. -/
def routineReferences (record : Record) : Except Fault (String × String) :=
  match record.routine with
  | some routine =>
    if record.bootstrapRoutine.isSome || record.apRoutine.isSome then .error .ambiguousRoutines
    else .ok (routine, routine)
  | none =>
    if record.perCpu then
      match record.bootstrapRoutine, record.apRoutine with
      | some bootstrap, some ap => .ok (bootstrap, ap)
      | _, _ => .error .perCpuMissingRoutine
    else .error .globalMissingRoutine

def phaseOf (record : Record) : Except Fault Phase :=
  match Phase.ofKey? record.phase with
  | some phase => .ok phase
  | none => .error (.invalidPhase record.phase)

/-- The importance that the record names, or else the default. -/
def importanceOf (record : Record) : Except Fault Importance :=
  match record.importance with
  | none => .ok .default
  | some key =>
    match Importance.ofKey? key with
    | some importance => .ok importance
    | none => .error (.invalidImportance key)

/-- A routine reference that follows the grammar. -/
def routineOf (reference : String) : Except Fault Routine :=
  match Routine.ofText? reference with
  | some routine => .ok routine
  | none => .error (.invalidRoutine reference)

/-- Where the component runs, given the references to its routines. -/
def executionOf (record : Record) (bootstrap ap : String) : Except Fault Execution := do
  let bootstrap ← routineOf bootstrap
  if record.perCpu then
    let ap ← routineOf ap
    return .perCpu bootstrap ap (.ofList ((record.apNeeds.getD []).map Capability.mk))
  else
    return .global bootstrap

def normalize (record : Record) (id : ComponentId) : Except Fault Component := do
  let (bootstrap, ap) ← record.routineReferences
  let phase ← record.phaseOf
  let importance ← record.importanceOf
  if !record.perCpu && record.apNeeds.isSome then
    throw .apNeedsOnGlobal
  let execution ← record.executionOf bootstrap ap
  return {
    id, phase, importance, execution
    displayName := record.name
    required := record.required
    provides := .ofList (record.provides.map Capability.mk)
    dependsOn := .ofList (record.dependsOn.map ComponentId.mk)
    needs := .ofList (record.needs.map Capability.mk) }

end Record

end BootTable
