import BootTable.Toml.Value

/-!
# BootTable — trees of definition files

The tree that the statements of a definition file build. Each table remembers how it came to be,
since that decides what later statements may do with it: a header may claim a table that only
other headers implied; a dotted key may extend a table that headers or dotted keys implied, but no
table that has a header or braces of its own. A key stands where it first appeared, but a table
that a header claims moves behind its neighbours.
-/

namespace BootTable.Toml

/-- How a table came to be. -/
inductive Origin where
  /-- It has a header or braces of its own, or is the whole document. -/
  | declared
  /-- A longer header named it on the way. -/
  | impliedByHeader
  /-- A dotted key named it on the way. -/
  | impliedByKey
deriving DecidableEq

/-- A node of the tree. -/
inductive Node where
  /-- A value that no later statement can reach into. -/
  | value (value : Value)
  /-- A table. -/
  | table (origin : Origin) (entries : List (String × Node))
  /-- Tables of one double header each. -/
  | tables (items : List (List (String × Node)))

/-- The nodes of a table, by key, in document order. -/
abbrev Entries := List (String × Node)

/-! ## The value of a tree -/

mutual

def Node.toValue : Node → Value
  | .value value => value
  | .table _ entries => .table (entryValues entries)
  | .tables items => .array (itemValues items)

def entryValues : List (String × Node) → Table
  | [] => []
  | (key, node) :: others => (key, node.toValue) :: entryValues others

/-- The tables that the entries under double headers stand for. -/
def itemValues : List (List (String × Node)) → List Value
  | [] => []
  | entries :: others => .table (entryValues entries) :: itemValues others

end

/-! ## Building -/

namespace Entries

/-- Puts a node in the place of the key's former node, or at the end if the key is new. -/
def put (key : String) (node : Node) : Entries → Entries
  | [] => [(key, node)]
  | entry :: others =>
    if entry.1 = key then (key, node) :: others else entry :: put key node others

/-- Puts a node at the end; the key's former node is taken out. -/
def putLast (key : String) (node : Node) (entries : Entries) : Entries :=
  entries.filter (fun entry => entry.1 ≠ key) ++ [(key, node)]

/-- Changes the table at the end of a path. Tables that are missing on the way are made with the
given origin; of tables under a double header the last one is meant. If the path is that of a
dotted key, no declared table may lie on the way. -/
def changeAt (made : Origin) (change : Origin → Entries → Option Entries) :
    List String → Origin → Entries → Option Entries
  | [], origin, entries => change origin entries
  | key :: path, _, entries =>
    match entries.lookup key with
    | none => do
      let inner ← changeAt made change path made []
      return put key (.table made inner) entries
    | some (.value _) => none
    | some (.table origin inner) => do
      if made = .impliedByKey ∧ origin = .declared then none
      let inner ← changeAt made change path origin inner
      return put key (.table origin inner) entries
    | some (.tables items) => do
      let last ← items.getLast?
      let inner ← changeAt made change path .declared last
      return put key (.tables (items.dropLast ++ [inner])) entries

/-- Gives a dotted key its value. The table that holds the last part must be declared if there is
only one part, and made by dotted keys otherwise; the last part must be new to it. -/
def assign (path : List String) (key : String) (value : Value) : Origin → Entries → Option Entries :=
  changeAt .impliedByKey (fun origin entries =>
    if decide (origin = .impliedByKey) = path.isEmpty then none
    else if (entries.lookup key).isSome then none
    else some (entries ++ [(key, .value value)])) path

/-- Declares a table by its header. One that other headers implied is claimed with its entries and
becomes the last of the table that holds it. -/
def declareTable (path : List String) (key : String) : Entries → Option Entries :=
  changeAt .impliedByHeader (fun _ entries =>
    match entries.lookup key with
    | none => some (putLast key (.table .declared []) entries)
    | some (.table .impliedByHeader inner) => some (putLast key (.table .declared inner) entries)
    | some _ => none) path .declared

/-- Adds a table to those under a double header. -/
def declareItem (path : List String) (key : String) : Entries → Option Entries :=
  changeAt .impliedByHeader (fun _ entries =>
    match entries.lookup key with
    | none => some (entries ++ [(key, .tables [[]])])
    | some (.tables items) => some (put key (.tables (items ++ [[]])) entries)
    | some _ => none) path .declared

end Entries

end BootTable.Toml
