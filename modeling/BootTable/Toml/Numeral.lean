import BootTable.Toml.Value

/-!
# BootTable — numerals

Whole numbers in four bases and floating-point numbers, with underscores between digits. A whole
number must fit into 64 bits with a sign.
-/

namespace BootTable.Toml

/-- The least whole number of 64 bits with a sign. -/
def leastInteger : Int := -9223372036854775808

/-- The greatest whole number of 64 bits with a sign. -/
def greatestInteger : Int := 9223372036854775807

namespace Reader

/-- Takes digits that go on from a first one; a single underscore may stand before each. -/
def moreDigits (accept : Char → Bool) : Reader (List Char)
  | [] => some ([], [])
  | '_' :: c :: rest =>
    if accept c then prependDigit c (moreDigits accept rest) else some ([], '_' :: c :: rest)
  | c :: rest =>
    if accept c then prependDigit c (moreDigits accept rest) else some ([], c :: rest)
where
  /-- Puts a digit before the digits that were read. -/
  prependDigit (c : Char) (read : Option (List Char × List Char)) :
      Option (List Char × List Char) :=
    read.map fun (cs, rest) => (c :: cs, rest)

/-- Takes one or more digits, with underscores between them. -/
def digits (accept : Char → Bool) : Reader (List Char) := do
  let first ← satisfying accept
  let others ← moreDigits accept
  return first :: others

/-- Takes a sign, if there is one; the answer is whether it is a minus. -/
def sign : Reader Bool := do
  let found ← optionally (satisfying fun c => c = '+' || c = '-')
  return found = some '-'

/-- Takes decimal digits that start with a zero only if they are a single zero. -/
def wholePart : Reader (List Char) := do
  match ← peek with
  | some '0' => do
    let zero ← satisfying Char.isDigit
    return [zero]
  | _ => digits Char.isDigit

def fractionPart : Reader (List Char) := do
  let _ ← char '.'
  digits Char.isDigit

/-- Takes the power of ten of a floating-point numeral. -/
def powerPart : Reader Int := do
  let _ ← satisfying fun c => c = 'e' || c = 'E'
  let negative ← sign
  let power ← digits Char.isDigit
  let n : Int := numberOf 10 power
  return if negative then -n else n

/-- A whole number, if it fits into 64 bits with a sign. -/
def fitting (n : Int) : Reader Value :=
  if leastInteger ≤ n ∧ n ≤ greatestInteger then return .integer n else failure

/-- Takes a whole number with the two characters that name its base. -/
def basedInteger (leader : List Char) (base : Nat) (accept : Char → Bool) : Reader Value := do
  word leader
  let found ← digits accept
  fitting (numberOf base found)

/-- Takes one of the numbers that are written as a word. -/
def specialFloat : Reader Value := do
  let negative ← sign
  (do
    word ['i', 'n', 'f']
    return .float (.infinity negative)) <|> (do
    word ['n', 'a', 'n']
    return .float .nan)

/-- Takes a floating-point numeral. One that is too great to be finite is refused; one below all
finite numbers is read as infinite. -/
def decimalFloat : Reader Value := do
  let negative ← sign
  let whole ← wholePart
  let fraction ← optionally fractionPart
  let power ← optionally powerPart
  if fraction.isNone && power.isNone then failure
  let after := fraction.getD []
  let number := Binary64.ofDecimal negative (numberOf 10 (whole ++ after))
    (power.getD 0 - after.length)
  if number = .infinity false then failure
  return .float number

def decimalInteger : Reader Value := do
  let negative ← sign
  let whole ← wholePart
  let n : Int := numberOf 10 whole
  fitting (if negative then -n else n)

def number : Reader Value :=
  specialFloat
    <|> basedInteger ['0', 'x'] 16 isHexDigit
    <|> basedInteger ['0', 'o'] 8 (fun c => '0' ≤ c && c ≤ '7')
    <|> basedInteger ['0', 'b'] 2 (fun c => c = '0' || c = '1')
    <|> decimalFloat
    <|> decimalInteger

end Reader

end BootTable.Toml
