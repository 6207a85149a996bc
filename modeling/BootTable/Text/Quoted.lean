import BootTable.Text.Padding
import BootTable.Text.Unprintable

/-!
# BootTable — quoted texts

The form in which diagnostics and the log show a text whose limits and contents must be visible:
between double quotes, with every character that would not show written as an escape.
-/

namespace BootTable.Text

/-- The escape of a character as its code point. -/
def codePointEscape (c : Char) : List Char :=
  ['\\', 'u', '\x7b'] ++ hexadecimal c.toNat ++ ['\x7d']

def quotedChar (c : Char) : List Char :=
  if c = '\x00' then ['\\', '0']
  else if c = '\t' then ['\\', 't']
  else if c = '\r' then ['\\', 'r']
  else if c = '\n' then ['\\', 'n']
  else if c = '\\' then ['\\', '\\']
  else if c = '\x22' then ['\\', '\x22']
  else if c.toNat < 0x20 then codePointEscape c
  else if c.toNat < 0x7f then [c]
  else if isUnprintable c then codePointEscape c
  else [c]

def quoted (text : String) : String :=
  String.ofList ('\x22' :: text.toList.flatMap quotedChar ++ ['\x22'])

/-- Quoted texts between brackets, separated by commas. -/
def quotedList (texts : List String) : String :=
  "[" ++ ", ".intercalate (texts.map quoted) ++ "]"

def backquoted (text : String) : String :=
  "`" ++ text ++ "`"

end BootTable.Text
