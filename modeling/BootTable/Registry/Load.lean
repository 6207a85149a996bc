import BootTable.Log
import BootTable.Record
import BootTable.Registry
import BootTable.Registry.Error
import BootTable.Source

/-!
# BootTable — loading a registry

Definitions are taken one after the other. A disabled record is passed over before anything else
about it is looked at; an enabled one must have a new id and make a component. The first definition
that fails decides the failure.
-/

namespace BootTable

/-- What the marker of a record says about it: its table if it is enabled, and nothing if it is
disabled. -/
def Definition.enabledTable? (definition : Definition) : Except Fault (Option Toml.Table) :=
  match definition.value with
  | .table table =>
    match Toml.Table.get? table "disabled" with
    | none => .ok (some table)
    | some (.boolean true) => .ok none
    | some (.boolean false) => .ok (some table)
    | some other =>
      .error (.invalidField ("`disabled` must be a boolean, found " ++ other.kind))
  | _ => .error .notATable

/-- The component that a table describes under the given id. -/
def componentOf (id : ComponentId) (table : Toml.Table) : Except Fault Component :=
  match Record.ofTable table with
  | .error fault => .error fault
  | .ok record => record.normalize id

/-- The components taken so far and the number of records passed over. -/
structure Loading where
  registry : Registry
  disabled : Nat

namespace Loading

def start : Loading := { registry := .empty, disabled := 0 }

/-- The failure that a fault of a definition causes. -/
def malformed (definition : Definition) (fault : Fault) : RegistryError :=
  .malformedComponent definition.id definition.origin fault

def takeEnabled (loading : Loading) (definition : Definition) (table : Toml.Table) :
    Logged RegistryError Loading :=
  match loading.registry.origin? definition.id with
  | some first => .fail (.duplicateComponent definition.id definition.origin first)
  | none =>
    match componentOf definition.id table with
    | .error fault => .fail (malformed definition fault)
    | .ok component => do
      .report (.componentLoaded definition.id component.phase component.isPerCpu)
      return { loading with registry := loading.registry.insert component definition.origin }

def take (loading : Loading) (definition : Definition) : Logged RegistryError Loading :=
  match definition.enabledTable? with
  | .error fault => .fail (malformed definition fault)
  | .ok none => do
    .report (.componentSkipped definition.id definition.origin)
    return { loading with disabled := loading.disabled + 1 }
  | .ok (some table) => loading.takeEnabled definition table

def takeAll (loading : Loading) : List Definition → Logged RegistryError Loading
  | [] => pure loading
  | definition :: others => do
    let next ← loading.take definition
    next.takeAll others

end Loading

/-- Merges the definitions of sources into a registry. -/
def Registry.load (sources : List Source) : Logged RegistryError Registry := do
  let final ← Loading.start.takeAll (definitionsOf sources)
  .report (.registryLoaded final.registry.size final.disabled)
  return final.registry

end BootTable
