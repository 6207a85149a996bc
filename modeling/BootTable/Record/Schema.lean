import BootTable.Toml.Decode

/-!
# BootTable — the schema of component records

The fields of a component record: the key of each, the kind of value it takes, and whether a record
must have it.
-/

namespace BootTable

/-- A field of a component record, listed in the order of the schema. -/
inductive Field where
  | name
  | required
  | perCpu
  | phase
  /-- The routine of a global component, or of both kinds of processor. -/
  | routine
  | bootstrapRoutine
  | apRoutine
  | provides
  | dependsOn
  | needs
  /-- The capabilities that only its application-processor routine needs. -/
  | apNeeds
  | importance
  | disabled
deriving DecidableEq, Repr

namespace Field

def all : List Field :=
  [name, required, perCpu, phase, routine, bootstrapRoutine, apRoutine, provides, dependsOn, needs,
    apNeeds, importance, disabled]

def key : Field → String
  | name => "name"
  | required => "required"
  | perCpu => "per_cpu"
  | phase => "phase"
  | routine => "routine"
  | bootstrapRoutine => "bootstrap_routine"
  | apRoutine => "ap_routine"
  | provides => "provides_capabilities"
  | dependsOn => "depends_on"
  | needs => "depends_on_capabilities"
  | apNeeds => "ap_depends_on_capabilities"
  | importance => "logging_importance"
  | disabled => "disabled"

def shape : Field → Toml.Shape
  | name | phase | routine | bootstrapRoutine | apRoutine | importance => .text
  | required | perCpu | disabled => .flag
  | provides | dependsOn | needs | apNeeds => .texts

/-- The field that a key names, if it names one. -/
def ofKey? (key : String) : Option Field :=
  all.find? fun field => field.key = key

/-- The keys of all fields, in the order of the schema. -/
def keys : List String :=
  all.map key

theorem ofKey?_key (field : Field) : ofKey? field.key = some field := by
  cases field <;> decide

end Field

def requiredKeys : List String := ["name", "required", "per_cpu", "phase"]

def optionalKeys : List String :=
  ["routine", "bootstrap_routine", "ap_routine", "provides_capabilities", "depends_on",
    "depends_on_capabilities", "ap_depends_on_capabilities", "logging_importance", "disabled"]

/-- The two lists of keys together are the keys of the schema. -/
theorem requiredKeys_append_optionalKeys : requiredKeys ++ optionalKeys = Field.keys := rfl

end BootTable
