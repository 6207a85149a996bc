import BootTable.Number.Binary64
import BootTable.Text.Padding

/-!
# BootTable — decimal notation of binary numbers

A binary number is written with the fewest decimal digits that read back to it, and of the
numerals with that many digits with the one nearest to it. The digits are selected by exact
arithmetic on natural numbers; where the point stands is decided afterwards.
-/

namespace BootTable.Decimal

/-- A decimal numeral: a whole number times a power of ten. -/
structure Numeral where
  digits : Nat
  exponent : Int
deriving DecidableEq, Repr

/-- The numbers that round to `significand` times two to `exponent` lie between these two ends,
which are counted in quarters of the last binary place. Below a power of two the gap is half as
wide. -/
def ends (significand : Nat) (exponent : Int) : Nat × Nat :=
  let atPower := significand = Binary64.leastFull ∧ exponent ≠ Binary64.leastExponent
  (if atPower then 4 * significand - 1 else 4 * significand - 2, 4 * significand + 2)

/-- A quotient of two numbers, each times a power of two or of ten, brought to natural numbers:
`a` times two to `p` compares with `b` times ten to `t` as the first of the pair with the second. -/
def aligned (a : Nat) (p : Int) (b : Nat) (t : Int) : Nat × Nat :=
  (a * Nat.pow 2 p.toNat * Nat.pow 10 (-t).toNat, b * Nat.pow 10 t.toNat * Nat.pow 2 (-p).toNat)

/-- The numeral lies among the numbers that round to `significand` times two to `exponent`. An end
of that interval belongs to it if the significand is even. -/
def readsBack (significand : Nat) (exponent : Int) (numeral : Numeral) : Bool :=
  let bounds := ends significand exponent
  let low := aligned bounds.1 (exponent - 2) numeral.digits numeral.exponent
  let high := aligned bounds.2 (exponent - 2) numeral.digits numeral.exponent
  if significand % 2 = 0 then low.1 ≤ low.2 && high.2 ≤ high.1
  else low.1 < low.2 && high.2 < high.1

/-- The least number of places before the point (negative where zeros follow the point) that
leaves room for the number; `tries` bounds the search upward from `places`. -/
def placesFrom (significand : Nat) (exponent : Int) : Nat → Int → Int
  | 0, places => places
  | tries + 1, places =>
    let sides := aligned significand exponent 1 places
    if sides.1 < sides.2 then places else placesFrom significand exponent tries (places + 1)

/-- The least `k` such that the number is less than ten to `k`. The search starts below the
estimate that the binary logarithm gives. -/
def placesOf (significand : Nat) (exponent : Int) : Int :=
  placesFrom significand exponent 8 (((significand.log2 : Int) + exponent) * 30103 / 100000 - 2)

/-- The two neighbours of the number on the grid of tens to `place`, if one reads back: the nearer
one that does, and the greater one of two equally near. -/
def onGrid? (significand : Nat) (exponent place : Int) : Option Numeral :=
  let sides := aligned significand exponent 1 place
  let below : Numeral := ⟨sides.1 / sides.2, place⟩
  let above : Numeral := ⟨sides.1 / sides.2 + 1, place⟩
  let rest := 2 * (sides.1 % sides.2)
  let belowFits := readsBack significand exponent below
  let aboveFits := readsBack significand exponent above
  if belowFits && aboveFits then
    if rest < sides.2 then some below else some above
  else if belowFits then some below
  else if aboveFits then some above
  else none

/-- Moves zeros at the end of the digits into the exponent; `tries` bounds their number. -/
def stripZeros : Nat → Numeral → Numeral
  | 0, numeral => numeral
  | tries + 1, numeral =>
    if numeral.digits % 10 = 0 ∧ numeral.digits ≠ 0 then
      stripZeros tries ⟨numeral.digits / 10, numeral.exponent + 1⟩
    else numeral

/-- The shortest numeral that reads back to `significand` times two to `exponent`. Seventeen digits
always suffice; the exact value stands in where none was found. -/
def shortest (significand : Nat) (exponent : Int) : Numeral :=
  let places := placesOf significand exponent
  let found := (List.range 17).findSome? fun n =>
    onGrid? significand exponent (places - (n + 1 : Nat))
  stripZeros 800 (found.getD
    ⟨significand * Nat.pow 2 exponent.toNat * Nat.pow 5 (-exponent).toNat, min exponent 0⟩)

/-- The digits of a numeral with its point in place, and at least one digit on either side. -/
def positionalDigits (numeral : Numeral) : List Char :=
  let digits := Nat.toDigits 10 numeral.digits
  if 0 ≤ numeral.exponent then
    digits ++ List.replicate numeral.exponent.toNat '0' ++ ['.', '0']
  else
    let after := (-numeral.exponent).toNat
    let filled := Text.zeroFilled (after + 1) digits
    filled.take (filled.length - after) ++ '.' :: filled.drop (filled.length - after)

/-- The digits of a numeral with the point after the first one, and the power of ten. -/
def scientificDigits (numeral : Numeral) : List Char :=
  match Nat.toDigits 10 numeral.digits with
  | [] => []
  | first :: rest =>
    let fraction := if rest.isEmpty then [] else '.' :: rest
    let power := numeral.exponent + rest.length
    first :: fraction ++ 'e' :: (Text.signedDecimal power).toList

/-- Positional notation is used from one ten-thousandth up to, but not including, ten to 16. -/
def isPositional (numeral : Numeral) : Bool :=
  let places := (Nat.toDigits 10 numeral.digits).length + numeral.exponent
  numeral.digits = 0 || (-3 ≤ places && places ≤ 16)

/-- The shortest numeral of a finite number. -/
def numeralOf (significand : Nat) (exponent : Int) : Numeral :=
  if significand = 0 then ⟨0, 0⟩ else shortest significand exponent

/-- A sign in front of the digits of a finite number, or the name of another one. -/
def withSign (number : Binary64) (digits : Numeral → List Char) : String :=
  match number with
  | .nan => "NaN"
  | .infinity negative => if negative then "-inf" else "inf"
  | .finite negative significand exponent =>
    String.ofList ((if negative then ['-'] else []) ++ digits (numeralOf significand exponent))

/-- The number in positional notation, whatever its size. -/
def positional (number : Binary64) : String :=
  withSign number positionalDigits

/-- The number in positional notation where it is neither very great nor very small, otherwise with
a power of ten. -/
def text (number : Binary64) : String :=
  withSign number fun numeral =>
    if isPositional numeral then positionalDigits numeral else scientificDigits numeral

end BootTable.Decimal
