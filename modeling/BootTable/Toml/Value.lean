import BootTable.Number.Decimal
import BootTable.Text.Quoted
import BootTable.Toml.Datetime

/-!
# BootTable — values of definition files

The values that a definition file holds. A table is the list of its keys and values in document
order; setting a key that is there keeps its place.
-/

namespace BootTable.Toml

/-- A value of a definition file. -/
inductive Value where
  | text (characters : String)
  | integer (number : Int)
  | float (number : Binary64)
  | boolean (truth : Bool)
  | datetime (moment : Datetime)
  | array (items : List Value)
  | table (entries : List (String × Value))
deriving Repr

abbrev Table := List (String × Value)

namespace Table

def keys (table : Table) : List String :=
  table.map Prod.fst

/-- The value of a key, if the table has the key. -/
def get? (table : Table) (key : String) : Option Value :=
  table.lookup key

def hasKey (table : Table) (key : String) : Bool :=
  table.keys.contains key

/-- Gives a key a value: in the place of its former value, or at the end if the key is new. -/
def set (key : String) (value : Value) : Table → Table
  | [] => [(key, value)]
  | entry :: others =>
    if entry.1 = key then (key, value) :: others else entry :: set key value others

/-- Takes a key out; the others keep their order. -/
def unset (key : String) (table : Table) : Table :=
  table.filter fun entry => entry.1 ≠ key

/-- The table of a list of entries, in which a later value of a key replaces the earlier one. -/
def ofEntries (entries : List (String × Value)) : Table :=
  entries.foldl (fun table entry => set entry.1 entry.2 table) []

end Table

namespace Value

def kind : Value → String
  | text _ => "string"
  | integer _ => "integer"
  | float _ => "float"
  | boolean _ => "boolean"
  | datetime _ => "datetime"
  | array _ => "array"
  | table _ => "table"

/-- A value as a diagnostic about its kind shows it. -/
def shown : Value → String
  | text characters => "string " ++ Text.quoted characters
  | integer number => "integer " ++ Text.backquoted (Text.signedDecimal number)
  | float number => "floating point " ++ Text.backquoted (Decimal.positional number)
  | boolean truth => "boolean " ++ Text.backquoted (if truth then "true" else "false")
  | datetime moment => "string " ++ Text.quoted moment.text
  | array _ => "sequence"
  | table _ => "map"

/-- The characters of a text; a date or time stands for its text. -/
def asText? : Value → Option String
  | text characters => some characters
  | datetime moment => some moment.text
  | _ => none

def asFlag? : Value → Option Bool
  | boolean truth => some truth
  | _ => none

/-- The items of an array all of whose items are texts. -/
def asTexts? : Value → Option (List String)
  | array items => items.mapM asText?
  | _ => none

end Value

end BootTable.Toml
