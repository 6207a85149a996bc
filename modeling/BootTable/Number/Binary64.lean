/-!
# BootTable — binary floating-point numbers

The 64-bit binary floating-point numbers as exact values: a whole significand times a power of
two. A decimal numeral stands for the number nearest to it; of two equally near numbers it stands
for the one with the even significand.
-/

namespace BootTable

/-- A 64-bit binary floating-point number. -/
inductive Binary64 where
  | nan
  | infinity (negative : Bool)
  /-- The significand times two to the exponent. -/
  | finite (negative : Bool) (significand : Nat) (exponent : Int)
deriving DecidableEq, Repr

namespace Binary64

/-- The exponent of the numbers nearest to zero. -/
def leastExponent : Int := -1074

/-- The greatest exponent of a finite number. -/
def greatestExponent : Int := 971

/-- The significand of a number that is neither zero nor close to it has this many binary digits. -/
def significandWidth : Nat := 53

/-- The least significand of full width. -/
def leastFull : Nat := Nat.pow 2 (significandWidth - 1)

/-- Zero, with a sign. -/
def zero (negative : Bool) : Binary64 := .finite negative 0 leastExponent

/-- A quotient divided by two to the exponent, as numerator and denominator. -/
def scaledBy (num den : Nat) (exponent : Int) : Nat × Nat :=
  (num * Nat.pow 2 (-exponent).toNat, den * Nat.pow 2 exponent.toNat)

/-- The whole number nearest to a quotient; a half goes to the even neighbour. -/
def roundHalfEven (num den : Nat) : Nat :=
  let below := num / den
  let rest := 2 * (num % den)
  if rest < den then below
  else if den < rest then below + 1
  else if below % 2 = 0 then below else below + 1

/-- The exponent at which a positive quotient has a significand of full width, unless that lies
below the least exponent. -/
def exponentOf (num den : Nat) : Int :=
  let guess : Int := (num.log2 : Int) - den.log2 - (significandWidth - 1 : Nat)
  let scaled := scaledBy num den guess
  let exact := if scaled.1 / scaled.2 < leastFull then guess - 1 else guess
  max exact leastExponent

/-- The number nearest to a quotient of natural numbers with a sign. -/
def nearest (negative : Bool) (num den : Nat) : Binary64 :=
  if num = 0 then zero negative
  else
    let exponent := exponentOf num den
    let scaled := scaledBy num den exponent
    let significand := roundHalfEven scaled.1 scaled.2
    if significand = 2 * leastFull then
      if exponent < greatestExponent then
        .finite negative leastFull (exponent + 1)
      else .infinity negative
    else if greatestExponent < exponent then .infinity negative
    else .finite negative significand exponent

/-- The number nearest to a decimal numeral, `digits` times ten to `exponent`. Numerals of more
than 310 places before the point are infinite, and those that start more than 330 places after it
are zero; neither needs the power of ten. -/
def ofDecimal (negative : Bool) (digits : Nat) (exponent : Int) : Binary64 :=
  let places : Int := (Nat.toDigits 10 digits).length + exponent
  if digits = 0 then zero negative
  else if 310 < places then .infinity negative
  else if places < -330 then zero negative
  else nearest negative (digits * Nat.pow 10 exponent.toNat) (Nat.pow 10 (-exponent).toNat)

end Binary64

end BootTable
