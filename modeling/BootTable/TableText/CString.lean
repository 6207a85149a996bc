import BootTable.Text.Padding

/-!
# BootTable — literals of the table

Display names stand in the table as string literals. Characters that would end the literal or break
its line are written as escapes: five of them by a letter, the other control characters of ASCII by
three octal digits, so that no digit after them can be taken for a part of the escape.
-/

namespace BootTable.CString

def isControl (c : Char) : Bool :=
  c.toNat < 0x20 || c.toNat = 0x7f

def octal (n : Nat) : List Char :=
  [Nat.digitChar (n / 64 % 8), Nat.digitChar (n / 8 % 8), Nat.digitChar (n % 8)]

def escapeChar (c : Char) : List Char :=
  if c = '\\' then ['\\', '\\']
  else if c = '\x22' then ['\\', '\x22']
  else if c = '\n' then ['\\', 'n']
  else if c = '\r' then ['\\', 'r']
  else if c = '\t' then ['\\', 't']
  else if isControl c then '\\' :: octal c.toNat
  else [c]

def escape (text : String) : String :=
  String.ofList (text.toList.flatMap escapeChar)

end BootTable.CString
