import BootTable.Source

/-!
# BootTable — edits of sources

A list of sources can be changed step by step: sources come and go or change places, records are
put in or taken out, and so are single keys of a record. An edit of what is not there changes
nothing.
-/

namespace BootTable

/-- A change of a list of sources. Sources are named by their place, counted from zero. -/
inductive SourceEdit where
  | add (source : Source)
  | drop (place : Nat)
  | swap (first second : Nat)
  /-- Sets a record; one that is there already keeps its place. -/
  | put (place : Nat) (id : String) (value : Toml.Value)
  | delete (place : Nat) (id : String)
  | set (place : Nat) (id key : String) (value : Toml.Value)
  | unset (place : Nat) (id key : String)

def Source.mapTable (f : Toml.Table → Toml.Table) (source : Source) : Source :=
  { source with table := f source.table }

/-- Changes the record of an id, if it is there and is a table. -/
def Source.mapRecord (id : String) (f : Toml.Table → Toml.Table) : Source → Source :=
  mapTable fun table =>
    table.map fun entry =>
      match entry with
      | (key, .table record) => if key = id then (key, .table (f record)) else (key, .table record)
      | other => other

/-- The list in which two items have changed places. -/
def SourceEdit.exchange {α : Type} (items : List α) (first second : Nat) : List α :=
  match items[first]?, items[second]? with
  | some a, some b => (items.set first b).set second a
  | _, _ => items

def SourceEdit.apply (sources : List Source) : SourceEdit → List Source
  | add source => sources ++ [source]
  | drop place => sources.eraseIdx place
  | swap first second => SourceEdit.exchange sources first second
  | put place id value => sources.modify place (.mapTable (Toml.Table.set id value))
  | delete place id => sources.modify place (.mapTable (Toml.Table.unset id))
  | set place id key value => sources.modify place (.mapRecord id (Toml.Table.set key value))
  | unset place id key => sources.modify place (.mapRecord id (Toml.Table.unset key))

end BootTable
