import BootTable.Toml.Value
import BootTable.Capability

/-!
# BootTable — definition sources

A definition source is a table of records with a name for diagnostics, usually the path of its
file. The definitions of several sources are taken in the order of the sources and, within each,
in document order.
-/

namespace BootTable

/-- A table of definition records and the name it goes by in diagnostics. -/
structure Source where
  origin : String
  /-- The records, by component id. -/
  table : Toml.Table

/-- One entry of a source. -/
structure Definition where
  id : ComponentId
  origin : String
  value : Toml.Value

/-- The entries of a source, in document order. -/
def Source.definitions (source : Source) : List Definition :=
  source.table.map fun entry => { id := ⟨entry.1⟩, origin := source.origin, value := entry.2 }

/-- The entries of all sources, in the order of the sources. -/
def definitionsOf (sources : List Source) : List Definition :=
  sources.flatMap Source.definitions

end BootTable
