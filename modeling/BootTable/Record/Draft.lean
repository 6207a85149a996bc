import BootTable.Source

/-!
# BootTable — drafts of records

A draft is a record in the making: it starts as a complete global or per-CPU component and is
changed key by key. Drafts make up a source, in their order.
-/

namespace BootTable

/-- A record in the making. -/
structure Draft where
  id : String
  table : Toml.Table

namespace Draft

/-! ## Starting -/

/-- A component that is not required, runs once and has the routine `init::` with its id. -/
def global (id phase : String) : Draft :=
  { id
    table := [
      ("name", .text id),
      ("required", .boolean false),
      ("per_cpu", .boolean false),
      ("phase", .text phase),
      ("routine", .text ("init::" ++ id))] }

/-! ## Changing -/

/-- Sets a key; one that is set already keeps its place. -/
def set (key : String) (value : Toml.Value) (draft : Draft) : Draft :=
  { draft with table := draft.table.set key value }

/-- Takes a key out; the others keep their order. -/
def unset (key : String) (draft : Draft) : Draft :=
  { draft with table := Toml.Table.unset key draft.table }

/-- The draft of a component that runs once on every processor, by one routine. -/
def perCpu (id phase : String) : Draft :=
  (global id phase).set "per_cpu" (.boolean true)

/-- Makes the needs of the component mandatory. -/
def required (draft : Draft) : Draft :=
  draft.set "required" (.boolean true)

def named (name : String) (draft : Draft) : Draft :=
  draft.set "name" (.text name)

/-- Gives the component one routine for every processor. -/
def routine (reference : String) (draft : Draft) : Draft :=
  draft.set "routine" (.text reference)

/-- Gives the component a routine for the bootstrap processor and one for the others, in place of
the one for all. -/
def splitRoutines (bootstrap ap : String) (draft : Draft) : Draft :=
  ((draft.unset "routine").set "bootstrap_routine" (.text bootstrap)).set "ap_routine" (.text ap)

def setTexts (key : String) (texts : List String) (draft : Draft) : Draft :=
  draft.set key (.array (texts.map .text))

/-- Lists the capabilities that the component provides. -/
def provides (capabilities : List String) (draft : Draft) : Draft :=
  draft.setTexts "provides_capabilities" capabilities

/-- Lists the components that must complete first. -/
def dependsOn (components : List String) (draft : Draft) : Draft :=
  draft.setTexts "depends_on" components

/-- Lists the capabilities that the component needs. -/
def needs (capabilities : List String) (draft : Draft) : Draft :=
  draft.setTexts "depends_on_capabilities" capabilities

/-- Lists the capabilities that only application processors need. -/
def apNeeds (capabilities : List String) (draft : Draft) : Draft :=
  draft.setTexts "ap_depends_on_capabilities" capabilities

/-- Sets the level at which the kernel reports the component. -/
def importance (key : String) (draft : Draft) : Draft :=
  draft.set "logging_importance" (.text key)

def disabled (draft : Draft) : Draft :=
  draft.set "disabled" (.boolean true)

end Draft

/-- The source of drafts; a later draft of an id takes the place of an earlier one. -/
def Source.ofDrafts (origin : String) (drafts : List Draft) : Source :=
  { origin, table := .ofEntries (drafts.map fun draft => (draft.id, .table draft.table)) }

end BootTable
