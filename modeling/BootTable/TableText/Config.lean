import BootTable.Toml.Decode

/-!
# BootTable — names of the table's surroundings

The kernel's names that the text of the table refers to. A configuration may give any of them; the
others keep their defaults.
-/

namespace BootTable

/-- The kernel's names that the text of the table refers to. -/
structure TableConfig where
  /-- The header included at the top. -/
  header : String := "init.h"
  /-- The scope that holds the table and the completion array. -/
  scope : String := "kernel::init"
  /-- The name of the table. -/
  tableName : String := "init_components"
  /-- The name of the array that has a place for every entry. -/
  completionArray : String := "complete_components"
  /-- The type of the entries. -/
  entryType : String := "InitComponent"
  /-- The entry that ends the table. -/
  sentinel : String := "END_SENTINEL"
deriving DecidableEq, Repr

namespace TableConfig

def default : TableConfig := {}

/-- The keys of the names in configuration files. -/
def keys : List String :=
  ["header", "namespace", "table_name", "completion_array", "entry_type", "sentinel"]

/-- The configuration that a table stands for, by the texts of its keys; the other names keep
their defaults. -/
def ofTexts (table : Toml.Table) : TableConfig :=
  { header := (table.text? "header").getD default.header
    scope := (table.text? "namespace").getD default.scope
    tableName := (table.text? "table_name").getD default.tableName
    completionArray := (table.text? "completion_array").getD default.completionArray
    entryType := (table.text? "entry_type").getD default.entryType
    sentinel := (table.text? "sentinel").getD default.sentinel }

/-- The kind of value that a key takes: every name is a text. -/
def shapeOf (key : String) : Option Toml.Shape :=
  if keys.contains key then some .text else none

/-- The configuration that a table of values stands for. -/
def ofTable (table : Toml.Table) : Except Toml.FieldFault TableConfig :=
  match table.fieldFault? shapeOf with
  | some fault => .error fault
  | none => .ok (ofTexts table)

/-- A date or time as it is seen straight from a document, where it is no text. -/
def datesAsMaps (table : Toml.Table) : Toml.Table :=
  table.map fun (key, value) =>
    match value with
    | .datetime _ => (key, .table [])
    | other => (key, other)

/-- The configuration that the table of a document stands for. There a date or time does not stand
for its text. -/
def ofDocument (table : Toml.Table) : Except Toml.FieldFault TableConfig :=
  ofTable (datesAsMaps table)

end TableConfig

end BootTable
