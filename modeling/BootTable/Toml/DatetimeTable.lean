import BootTable.Toml.Value

/-!
# BootTable — dates and times spelled as tables

A table in a document whose first key is reserved for it stands for a date or a time, and the value
of that key must spell one. The other keys of such a table count for nothing. The document itself is
never taken for a date.
-/

namespace BootTable.Toml

/-- The key that makes a table stand for a date or a time. -/
def datetimeKey : String := "$__toml_private_datetime"

/-- The date or time that the value of the reserved key spells. -/
def Value.asDatetime? : Value → Option Value
  | .text characters => (Datetime.ofText? characters).map .datetime
  | _ => none

mutual

/-- The value in which every table with the reserved key in front is a date or a time. There is none
if one of them spells neither. -/
def Value.resolve? : Value → Option Value
  | .table entries => resolveTable? entries
  | .array items => (resolveItems? items).map .array
  | other => some other

/-- The value that the entries of a table stand for. -/
def resolveTable? : List (String × Value) → Option Value
  | [] => some (.table [])
  | (key, value) :: others =>
    if key = datetimeKey then value.asDatetime?
    else do
      let first ← value.resolve?
      let rest ← resolveEntries? others
      return .table ((key, first) :: rest)

/-- The entries of a table with their values resolved. -/
def resolveEntries? : List (String × Value) → Option (List (String × Value))
  | [] => some []
  | (key, value) :: others => do
    let first ← value.resolve?
    let rest ← resolveEntries? others
    return (key, first) :: rest

def resolveItems? : List Value → Option (List Value)
  | [] => some []
  | item :: others => do
    let first ← item.resolve?
    let rest ← resolveItems? others
    return first :: rest

end

end BootTable.Toml
