import BootTable.Toml.Value

/-!
# BootTable — typed fields of tables

A table that stands for a record has a fixed list of fields, each of which takes one kind of
value. Its entries are checked in document order: the first one that has an unknown key or a value
of the wrong kind is the fault. Missing fields are found last.
-/

namespace BootTable.Toml

/-- The kind of value that a field takes. -/
inductive Shape where
  /-- A text; a date or time stands for its text. -/
  | text
  | flag
  | texts
deriving DecidableEq, Repr

/-- What is wrong with the fields of a table. -/
inductive FieldFault where
  | unknownField (key : String)
  /-- A value of the wrong kind: the value as diagnostics show it, and the kind expected. -/
  | wrongKind (shown expected : String)
  | missingField (key : String)
deriving DecidableEq, Repr

/-- The wording of a fault, given the names of all fields. -/
def FieldFault.message (fields : List String) : FieldFault → String
  | unknownField key =>
    "unknown field " ++ Text.backquoted key ++ ", expected one of "
      ++ ", ".intercalate (fields.map Text.backquoted)
  | wrongKind shown expected => "invalid type: " ++ shown ++ ", expected " ++ expected
  | missingField key => "missing field " ++ Text.backquoted key

/-- The kind of value that a shape asks for, in words. -/
def Shape.expected : Shape → String
  | text => "a string"
  | flag => "a boolean"
  | texts => "a sequence"

namespace Value

def wrongKind (value : Value) (expected : String) : FieldFault :=
  .wrongKind value.shown expected

/-- The fault of a value in a place for a text. -/
def textFault? (value : Value) : Option FieldFault :=
  if value.asText?.isSome then none else some (value.wrongKind Shape.text.expected)

/-- The fault of a value in a place of the given shape. Of an array of texts the first item that
is no text is at fault. -/
def shapeFault? (value : Value) : Shape → Option FieldFault
  | .text => value.textFault?
  | .flag => if value.asFlag?.isSome then none else some (value.wrongKind Shape.flag.expected)
  | .texts =>
    match value with
    | .array items => items.findSome? textFault?
    | other => some (other.wrongKind Shape.texts.expected)

end Value

namespace Table

/-- The first fault of the entries, in document order. -/
def fieldFault? (shapeOf : String → Option Shape) (table : Table) : Option FieldFault :=
  table.findSome? fun entry =>
    match shapeOf entry.1 with
    | none => some (.unknownField entry.1)
    | some shape => entry.2.shapeFault? shape

def text? (table : Table) (key : String) : Option String :=
  (table.get? key).bind Value.asText?

def flag? (table : Table) (key : String) : Option Bool :=
  (table.get? key).bind Value.asFlag?

def texts? (table : Table) (key : String) : Option (List String) :=
  (table.get? key).bind Value.asTexts?

def demand {α : Type} (key : String) : Option α → Except FieldFault α
  | some a => .ok a
  | none => .error (.missingField key)

end Table

end BootTable.Toml
