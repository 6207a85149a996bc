/-!
# BootTable — readers

A reader takes something off the front of a text or refuses the text. This module has the readers
that every form of the definition files is built from.
-/

namespace BootTable.Toml

/-- Takes something off the front of a text and leaves the rest, or refuses the text. -/
abbrev Reader (α : Type) := StateT (List Char) Option α

namespace Reader

/-- The next character, which stays where it is; there is none at the end of the text. -/
def peek : Reader (Option Char) := fun text => some (text.head?, text)

def satisfying (accept : Char → Bool) : Reader Char
  | [] => none
  | c :: rest => if accept c then some (c, rest) else none

def char (c : Char) : Reader Char :=
  satisfying (· = c)

/-- Takes the longest run of characters of a class, which may be empty. -/
def run (accept : Char → Bool) : Reader (List Char) := fun text =>
  some (text.takeWhile accept, text.dropWhile accept)

/-- Takes exactly so many characters, all of one class. -/
def exactly (count : Nat) (accept : Char → Bool) : Reader (List Char) := fun text =>
  let taken := text.take count
  if taken.length = count ∧ taken.all accept then some (taken, text.drop count) else none

def word (letters : List Char) : Reader Unit := fun text =>
  if letters.isPrefixOf text then some ((), text.drop letters.length) else none

/-- Takes what the reader takes, or nothing where it refuses. -/
def optionally {α : Type} (reader : Reader α) : Reader (Option α) := fun text =>
  match reader text with
  | some (a, rest) => some (some a, rest)
  | none => some (none, text)

/-- Takes items with separators between them, at least one item and at most `tries`. A separator
is taken only where an item follows it. -/
def separatedUpTo {α β : Type} (item : Reader α) (separator : Reader β) : Nat → Reader (List α)
  | 0 => failure
  | tries + 1 => do
    let first ← item
    let others ← optionally (do
      let _ ← separator
      separatedUpTo item separator tries)
    return first :: others.getD []

/-- Takes one or more items with separators between them. Each item takes a character or more, so
the length of the text bounds their number. -/
def separated {α β : Type} (item : Reader α) (separator : Reader β) : Reader (List α) :=
  fun text => separatedUpTo item separator (text.length + 1) text

def atEnd : Reader Unit := fun text =>
  if text.isEmpty then some ((), text) else none

/-- What the reader takes, if it takes the whole text. -/
def wholeOf {α : Type} (reader : Reader α) (text : List Char) : Option α :=
  match reader text with
  | some (a, []) => some a
  | _ => none

end Reader

/-! ## Character classes -/

def isBlank (c : Char) : Bool :=
  c = ' ' || c = '\t'

/-- Everything but the control characters; a tab is allowed. -/
def isTextual (c : Char) : Bool :=
  c = '\t' || (0x20 ≤ c.toNat && c.toNat ≠ 0x7f)

def isHexDigit (c : Char) : Bool :=
  c.isDigit || ('a' ≤ c && c ≤ 'f') || ('A' ≤ c && c ≤ 'F')

/-- The value of a digit in a base up to sixteen. -/
def digitValue (c : Char) : Nat :=
  if c.isDigit then c.toNat - '0'.toNat
  else if 'a' ≤ c then c.toNat - 'a'.toNat + 10
  else c.toNat - 'A'.toNat + 10

/-- The number that digits spell in a base, most significant digit first. -/
def numberOf (base : Nat) (digits : List Char) : Nat :=
  digits.foldl (fun n c => n * base + digitValue c) 0

namespace Reader

def blanks : Reader Unit := do
  let _ ← run isBlank

/-- Takes a line feed, with or without a carriage return before it. -/
def newline : Reader Unit
  | '\n' :: rest => some ((), rest)
  | '\r' :: '\n' :: rest => some ((), rest)
  | _ => none

/-- Takes the end of a line or accepts the end of the text. -/
def lineEnd : Reader Unit :=
  newline <|> atEnd

def comment : Reader Unit := do
  let _ ← char '#'
  let _ ← run isTextual

/-- Takes what may follow a statement on its line, and the end of the line. -/
def lineRest : Reader Unit := do
  blanks
  let _ ← optionally comment
  lineEnd

/-- Takes blanks, line ends and comments; within a comment up to the end of its line. -/
def triviaFrom (inComment : Bool) : List Char → Option (List Char)
  | [] => if inComment then none else some []
  | '\n' :: rest => triviaFrom false rest
  | '\r' :: '\n' :: rest => triviaFrom false rest
  | c :: rest =>
    if inComment then
      if isTextual c then triviaFrom true rest else none
    else if isBlank c then triviaFrom false rest
    else if c = '#' then triviaFrom true rest
    else some (c :: rest)

def trivia : Reader Unit := fun text =>
  (triviaFrom false text).map fun rest => ((), rest)

end Reader

end BootTable.Toml
