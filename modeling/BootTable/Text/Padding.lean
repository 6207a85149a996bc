/-!
# BootTable — numerals of fixed width

Decimal, octal and hexadecimal numerals, filled with zeros on the left where a format fixes
their width.
-/

namespace BootTable.Text

/-- Puts zeros before a numeral until it has at least the given width. -/
def zeroFilled (width : Nat) (digits : List Char) : List Char :=
  List.replicate (width - digits.length) '0' ++ digits

/-- A decimal numeral with at least the given width. -/
def decimal (width n : Nat) : String :=
  String.ofList (zeroFilled width (Nat.toDigits 10 n))

/-- A lower-case hexadecimal numeral without leading zeros. -/
def hexadecimal (n : Nat) : List Char :=
  Nat.toDigits 16 n

/-- A decimal numeral of an integer, with a minus sign where it is negative. -/
def signedDecimal (n : Int) : String :=
  if n < 0 then "-" ++ decimal 1 n.natAbs else decimal 1 n.natAbs

end BootTable.Text
