import BootTable.Text.Padding
import BootTable.Toml.Reader

/-!
# BootTable — dates and times

The dates and times that a definition file may hold, their text and their reader. Fractions of a
second are kept to the nanosecond; further digits are cut off.
-/

namespace BootTable.Toml

/-- A day of the calendar. -/
structure Date where
  year : Nat
  month : Nat
  day : Nat
deriving DecidableEq, Repr

/-- A time of day. -/
structure TimeOfDay where
  hour : Nat
  minute : Nat
  second : Nat
  nanosecond : Nat
deriving DecidableEq, Repr

/-- The distance of a local time from universal time. -/
inductive Offset where
  | universal
  /-- So many minutes ahead. -/
  | minutes (ahead : Int)
deriving DecidableEq, Repr

/-- A date, a time, or both with or without an offset. -/
inductive Datetime where
  | date (date : Date)
  | time (time : TimeOfDay)
  | moment (date : Date) (time : TimeOfDay) (offset : Option Offset)
deriving DecidableEq, Repr

/-! ## Text -/

def Date.text (date : Date) : String :=
  Text.decimal 4 date.year ++ "-" ++ Text.decimal 2 date.month ++ "-" ++ Text.decimal 2 date.day

/-- The digits of a fraction without the zeros at its end. -/
def fractionText (nanosecond : Nat) : String :=
  if nanosecond = 0 then ""
  else
    let digits := (Text.decimal 9 nanosecond).toList
    "." ++ String.ofList (digits.reverse.dropWhile (· = '0')).reverse

/-- Hour, minute and second with colons, and the fraction if there is one. -/
def TimeOfDay.text (time : TimeOfDay) : String :=
  Text.decimal 2 time.hour ++ ":" ++ Text.decimal 2 time.minute ++ ":"
    ++ Text.decimal 2 time.second ++ fractionText time.nanosecond

/-- `Z` for universal time, otherwise sign, hours and minutes. -/
def Offset.text : Offset → String
  | universal => "Z"
  | minutes ahead =>
    (if ahead < 0 then "-" else "+") ++ Text.decimal 2 (ahead.natAbs / 60) ++ ":"
      ++ Text.decimal 2 (ahead.natAbs % 60)

/-- The parts that there are, with a `T` between date and time. -/
def Datetime.text : Datetime → String
  | date day => day.text
  | time clock => clock.text
  | moment day clock offset => day.text ++ "T" ++ clock.text ++ (offset.elim "" Offset.text)

/-! ## Reader -/

/-- Every fourth year is a leap year, but of the full centuries only every fourth. -/
def isLeapYear (year : Nat) : Bool :=
  year % 4 = 0 && (year % 100 ≠ 0 || year % 400 = 0)

def daysInMonth (year month : Nat) : Nat :=
  if month = 2 then (if isLeapYear year then 29 else 28)
  else if month = 4 ∨ month = 6 ∨ month = 9 ∨ month = 11 then 30
  else 31

namespace Reader

/-- Takes a number of so many digits that lies between two bounds. -/
def boundedNumber (width least greatest : Nat) : Reader Nat := do
  let digits ← exactly width Char.isDigit
  let n := numberOf 10 digits
  if least ≤ n ∧ n ≤ greatest then return n else failure

def date : Reader Date := do
  let year ← boundedNumber 4 0 9999
  let _ ← char '-'
  let month ← boundedNumber 2 1 12
  let _ ← char '-'
  let day ← boundedNumber 2 1 (daysInMonth year month)
  return { year, month, day }

/-- Takes a fraction of a second, in nanoseconds. -/
def fraction : Reader Nat := do
  let _ ← char '.'
  let digits ← run Char.isDigit
  if digits.isEmpty then failure
  let kept := digits.take 9
  return numberOf 10 kept * Nat.pow 10 (9 - kept.length)

/-- Takes a time of day. A leap second counts as second 60. -/
def timeOfDay : Reader TimeOfDay := do
  let hour ← boundedNumber 2 0 23
  let _ ← char ':'
  let minute ← boundedNumber 2 0 59
  let _ ← char ':'
  let second ← boundedNumber 2 0 60
  let nanosecond ← optionally fraction
  return { hour, minute, second, nanosecond := nanosecond.getD 0 }

def numericOffset : Reader Offset := do
  let sign ← satisfying fun c => c = '+' || c = '-'
  let hours ← boundedNumber 2 0 23
  let _ ← char ':'
  let minutes ← boundedNumber 2 0 59
  let ahead := hours * 60 + minutes
  return .minutes (if sign = '-' then -ahead else ahead)

def offset : Reader Offset :=
  (do
    let _ ← satisfying fun c => c = 'Z' || c = 'z'
    return .universal) <|> numericOffset

/-- Takes the time that may follow a date, after a `T` or a space. -/
def timeAfterDate : Reader (TimeOfDay × Option Offset) := do
  let _ ← satisfying fun c => c = 'T' || c = 't' || c = ' '
  let time ← timeOfDay
  let offset ← optionally offset
  return (time, offset)

def datetime : Reader Datetime :=
  (do
    let day ← date
    let time ← optionally timeAfterDate
    return match time with
      | some (clock, offset) => .moment day clock offset
      | none => .date day) <|> (.time <$> timeOfDay)

end Reader

def Datetime.ofText? (text : String) : Option Datetime :=
  Reader.wholeOf Reader.datetime text.toList

end BootTable.Toml
