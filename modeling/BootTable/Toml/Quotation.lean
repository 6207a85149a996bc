import BootTable.Toml.Reader

/-!
# BootTable — quotations

The four forms in which a definition file writes a text: between double quotes, where escapes are
resolved, or between apostrophes, where every character stands for itself; each on one line, or
between three quotes over several lines.
-/

namespace BootTable.Toml

def quote : Char := '\x22'

def apostrophe : Char := '\x27'

/-- The character of a code point that has one. -/
def scalar? (hex : List Char) : Option Char :=
  let n := numberOf 16 hex
  if hex.all isHexDigit ∧ n.isValidChar then some (Char.ofNat n) else none

/-- The character that an escape of one letter stands for. -/
def letterEscape? (c : Char) : Option Char :=
  if c = 'b' then some '\x08'
  else if c = 't' then some '\t'
  else if c = 'n' then some '\n'
  else if c = 'f' then some '\x0c'
  else if c = 'r' then some '\r'
  else if c = quote then some quote
  else if c = '\\' then some '\\'
  else none

/-- Puts a character before a text that was read. -/
def prepend (c : Char) (read : Option (List Char × List Char)) : Option (List Char × List Char) :=
  read.map fun (cs, rest) => (c :: cs, rest)

namespace Reader

/-- Takes a text up to the double quote that closes it. -/
def quotedBody : Reader (List Char)
  | [] => none
  | '\x22' :: rest => some ([], rest)
  | '\\' :: 'u' :: a :: b :: c :: d :: rest =>
    (scalar? [a, b, c, d]).bind fun x => prepend x (quotedBody rest)
  | '\\' :: 'U' :: a :: b :: c :: d :: e :: f :: g :: h :: rest =>
    (scalar? [a, b, c, d, e, f, g, h]).bind fun x => prepend x (quotedBody rest)
  | '\\' :: c :: rest => (letterEscape? c).bind fun x => prepend x (quotedBody rest)
  | c :: rest => if isTextual c then prepend c (quotedBody rest) else none

/-- Takes a text up to the apostrophe that closes it. -/
def literalBody : Reader (List Char)
  | [] => none
  | '\x27' :: rest => some ([], rest)
  | c :: rest => if isTextual c then prepend c (literalBody rest) else none

/-- Where the reader of a quotation over several lines stands. -/
inductive Place where
  /-- Within the text. -/
  | content
  /-- After a backslash that must be the last visible character of its line. -/
  | lineBreak
  /-- Past such a line, before the next visible character. -/
  | margin
deriving DecidableEq

/-- Takes a text up to the three double quotes that close it; one or two more quotes before them
belong to the text. A backslash at the end of a line takes the blanks and line ends after it
away. -/
def quotedLines : Place → List Char → Option (List Char × List Char)
  | _, [] => none
  | .lineBreak, '\n' :: rest => quotedLines .margin rest
  | .lineBreak, '\r' :: '\n' :: rest => quotedLines .margin rest
  | .lineBreak, c :: rest => if isBlank c then quotedLines .lineBreak rest else none
  | .margin, '\n' :: rest => quotedLines .margin rest
  | .margin, '\r' :: '\n' :: rest => quotedLines .margin rest
  | .margin, ' ' :: rest => quotedLines .margin rest
  | .margin, '\t' :: rest => quotedLines .margin rest
  | _, '\x22' :: '\x22' :: '\x22' :: '\x22' :: '\x22' :: rest => some ([quote, quote], rest)
  | _, '\x22' :: '\x22' :: '\x22' :: '\x22' :: rest => some ([quote], rest)
  | _, '\x22' :: '\x22' :: '\x22' :: rest => some ([], rest)
  | _, '\x22' :: rest => prepend quote (quotedLines .content rest)
  | _, '\\' :: 'u' :: a :: b :: c :: d :: rest =>
    (scalar? [a, b, c, d]).bind fun x => prepend x (quotedLines .content rest)
  | _, '\\' :: 'U' :: a :: b :: c :: d :: e :: f :: g :: h :: rest =>
    (scalar? [a, b, c, d, e, f, g, h]).bind fun x => prepend x (quotedLines .content rest)
  | _, '\\' :: '\n' :: rest => quotedLines .margin rest
  | _, '\\' :: '\r' :: '\n' :: rest => quotedLines .margin rest
  | _, '\\' :: c :: rest =>
    if isBlank c then quotedLines .lineBreak rest
    else (letterEscape? c).bind fun x => prepend x (quotedLines .content rest)
  | _, '\n' :: rest => prepend '\n' (quotedLines .content rest)
  | _, '\r' :: '\n' :: rest => prepend '\n' (quotedLines .content rest)
  | _, c :: rest => if isTextual c then prepend c (quotedLines .content rest) else none

/-- Takes a text up to the three apostrophes that close it; one or two more apostrophes before
them belong to the text. -/
def literalLines : Reader (List Char)
  | [] => none
  | '\x27' :: '\x27' :: '\x27' :: '\x27' :: '\x27' :: rest => some ([apostrophe, apostrophe], rest)
  | '\x27' :: '\x27' :: '\x27' :: '\x27' :: rest => some ([apostrophe], rest)
  | '\x27' :: '\x27' :: '\x27' :: rest => some ([], rest)
  | '\n' :: rest => prepend '\n' (literalLines rest)
  | '\r' :: '\n' :: rest => prepend '\n' (literalLines rest)
  | c :: rest => if isTextual c then prepend c (literalLines rest) else none

def quotation : Reader String
  | '\x22' :: rest => (quotedBody rest).map fun (cs, rest) => (String.ofList cs, rest)
  | '\x27' :: rest => (literalBody rest).map fun (cs, rest) => (String.ofList cs, rest)
  | _ => none

/-- A line end right after the opening quotes does not belong to the text. -/
def withoutFirstBreak : List Char → List Char
  | '\n' :: rest => rest
  | '\r' :: '\n' :: rest => rest
  | text => text

def anyQuotation : Reader String
  | '\x22' :: '\x22' :: '\x22' :: rest =>
    (quotedLines .content (withoutFirstBreak rest)).map fun (cs, rest) => (String.ofList cs, rest)
  | '\x27' :: '\x27' :: '\x27' :: rest =>
    (literalLines (withoutFirstBreak rest)).map fun (cs, rest) => (String.ofList cs, rest)
  | text => quotation text

end Reader

end BootTable.Toml
