import BootTable.Toml.DatetimeTable
import BootTable.Toml.Numeral
import BootTable.Toml.Quotation
import BootTable.Toml.Tree

/-!
# BootTable — definition documents

A document is a sequence of statements: headers, which say which table the next keys belong to, and
assignments. `Toml.parse` reads the statements of a text and builds the table they stand for.
-/

namespace BootTable.Toml

/-- Arrays and braces nest this deep, and keys have this many parts, at most. -/
def nestingLimit : Nat := 79

/-- A statement of a document. -/
inductive Statement where
  | header (path : List String)
  /-- The header of one more table in an array. -/
  | itemHeader (path : List String)
  | assignment (path : List String) (value : Value)

namespace Reader

def keyPart : Reader String :=
  quotation <|> (do
    let letters ← run fun c => c.isAlphanum || c = '-' || c = '_'
    if letters.isEmpty then failure
    return String.ofList letters)

/-- Takes a key of one or more parts with points between them. A point after the last part that a
key may have stays where it is, and nothing that may follow a key begins with one. -/
def key : Reader (List String) :=
  separatedUpTo (do
    blanks
    let part ← keyPart
    blanks
    return part) (char '.') nestingLimit

/-- Takes the items of an array up to the bracket that closes it. -/
def itemsUpTo (item : Reader Value) : Nat → Reader (List Value)
  | 0 => failure
  | tries + 1 => do
    trivia
    match ← peek with
    | some ']' => do
      char ']' *> pure []
    | _ => do
      let first ← item
      trivia
      match ← peek with
      | some ',' => do
        let _ ← char ','
        let others ← itemsUpTo item tries
        return first :: others
      | _ => do
        let _ ← char ']'
        return [first]

/-- Takes an array, given the reader of its items. -/
def array (item : Reader Value) : Reader Value := do
  let _ ← char '['
  let items ← fun text => itemsUpTo item (text.length + 1) text
  return .array items

/-- Takes a key and its value, given the reader of the value. -/
def pair (item : Reader Value) : Reader (List String × Value) := do
  let path ← key
  let _ ← char '='
  blanks
  let value ← item
  blanks
  return (path, value)

/-- The table that the pairs between braces make. -/
def tableOfPairs (pairs : List (List String × Value)) : Option Table := do
  let entries ← pairs.foldlM (fun entries (path, value) =>
    Entries.assign path.dropLast (path.getLastD "") value .declared entries) []
  return entryValues entries

/-- Takes a table between braces, given the reader of its values. -/
def bracedTable (item : Reader Value) : Reader Value := do
  let _ ← char '\x7b'
  let pairs ← optionally (separated (pair item) (char ','))
  blanks
  let _ ← char '\x7d'
  let table ← StateT.lift (tableOfPairs (pairs.getD []))
  return .table table

def boolean : Reader Value :=
  (word ['t', 'r', 'u', 'e'] *> pure (.boolean true))
    <|> (word ['f', 'a', 'l', 's', 'e'] *> pure (.boolean false))

def plainValue : Reader Value :=
  (.text <$> anyQuotation) <|> boolean <|> (.datetime <$> datetime) <|> number

/-- Takes a value in which arrays and braces nest at most so deep. -/
def value : Nat → Reader Value
  | 0 => plainValue
  | depth + 1 => do
    match ← peek with
    | some '[' => array (value depth)
    | some '\x7b' => bracedTable (value depth)
    | _ => plainValue

def header : Reader Statement := do
  let _ ← char '['
  match ← peek with
  | some '[' => do
    let _ ← char '['
    let path ← key
    word [']', ']']
    return .itemHeader path
  | _ => do
    let path ← key
    let _ ← char ']'
    return .header path

def assignment : Reader Statement := do
  let (path, value) ← pair (value nestingLimit)
  return .assignment path value

/-- Takes all statements up to the end of the text, each on a line of its own. -/
def statementsUpTo : Nat → Reader (List Statement)
  | 0 => failure
  | tries + 1 => do
    blanks
    match ← peek with
    | none => return []
    | some c => do
      let statement ← if c = '#' ∨ c = '\n' ∨ c = '\r' then pure none
        else if c = '[' then some <$> header
        else some <$> assignment
      lineRest
      let others ← statementsUpTo tries
      return statement.toList ++ others

/-- Takes all statements up to the end of the text. Each line has a character at least, so the
length of the text bounds their number. -/
def statements : Reader (List Statement) := fun text =>
  statementsUpTo (text.length + 1) text

end Reader

/-! ## Building the table -/

/-- What the statements so far have built, and the table that the next keys belong to. -/
structure Build where
  root : Entries
  current : List String

namespace Build

def add (build : Build) : Statement → Option Build
  | .header path => do
    let root ← Entries.declareTable path.dropLast (path.getLastD "") build.root
    return { root, current := path }
  | .itemHeader path => do
    let root ← Entries.declareItem path.dropLast (path.getLastD "") build.root
    return { root, current := path }
  | .assignment path value => do
    let root ← Entries.changeAt .impliedByHeader
      (Entries.assign path.dropLast (path.getLastD "") value) build.current .declared build.root
    return { build with root }

end Build

/-- The table that statements stand for, unless one of them contradicts an earlier one. -/
def tableOf? (statements : List Statement) : Option Table := do
  let build ← statements.foldlM Build.add { root := [], current := [] }
  resolveEntries? (entryValues build.root)

/-- A byte order mark at the start of a text does not belong to the document. -/
def withoutByteOrderMark : List Char → List Char
  | '\ufeff' :: rest => rest
  | text => text

/-- The table that a document stands for; a text that is no document has none. -/
def parse (document : String) : Option Table := do
  let statements ← Reader.wholeOf Reader.statements (withoutByteOrderMark document.toList)
  tableOf? statements

end BootTable.Toml
