import Gazetteer.Decimal.Fixed
import Gazetteer.Decimal.Reading
import Gazetteer.Text.Blank

/-!
# Timestamps

Moments of universal time, read from the date-time notation of the internet and written in
it.  The reader is lenient about blank space and short numbers; the writer has one spelling
for each moment.
-/

namespace Gazetteer

/-- A moment: whole seconds since the beginning of 1970, and nanoseconds.  During a leap
second there are a thousand million nanoseconds and more. -/
structure Timestamp where
  seconds : Int
  nanoseconds : Nat
deriving DecidableEq, Repr

namespace Timestamp

/-! ## Dates -/

/-- Whether a year has a 29th of February. -/
def isLeapYear (year : Int) : Bool :=
  year % 4 == 0 && (year % 100 != 0 || year % 400 == 0)

/-- The number of days of a month. -/
def daysInMonth (year : Int) (month : Nat) : Nat :=
  if month = 2 then (if isLeapYear year then 29 else 28)
  else if month = 4 ∨ month = 6 ∨ month = 9 ∨ month = 11 then 30
  else 31

/-- The number of days from the beginning of 1970 to a date.  Years are counted from March,
so that a leap day comes last. -/
def daysOfDate (year : Int) (month day : Nat) : Int :=
  let shifted : Int := if month ≤ 2 then year - 1 else year
  let era := shifted / 400
  let yearOfEra := shifted - era * 400
  let monthFromMarch : Int := (month + 9) % 12
  let dayOfYear := (153 * monthFromMarch + 2) / 5 + day - 1
  let dayOfEra := yearOfEra * 365 + yearOfEra / 4 - yearOfEra / 100 + dayOfYear
  era * 146097 + dayOfEra - 719468

/-- The date that is a number of days after the beginning of 1970. -/
def dateOfDays (days : Int) : Int × Nat × Nat :=
  let shifted := days + 719468
  let era := shifted / 146097
  let dayOfEra := shifted - era * 146097
  let yearOfEra := (dayOfEra - dayOfEra / 1460 + dayOfEra / 36524 - dayOfEra / 146096) / 365
  let dayOfYear := dayOfEra - (365 * yearOfEra + yearOfEra / 4 - yearOfEra / 100)
  let monthFromMarch := (5 * dayOfYear + 2) / 153
  let day := dayOfYear - (153 * monthFromMarch + 2) / 5 + 1
  let month := if monthFromMarch < 10 then monthFromMarch + 3 else monthFromMarch - 9
  let year := yearOfEra + era * 400 + if month ≤ 2 then 1 else 0
  (year, month.toNat, day.toNat)

/-! ## Writing -/

/-- Four digits, with a sign in front where four do not suffice. -/
def yearText (year : Int) : String :=
  if 0 ≤ year ∧ year ≤ 9999 then Decimal.padded 4 year.toNat
  else (if year < 0 then "-" else "+") ++ Decimal.padded 4 year.natAbs

/-- The fraction of a second in as many groups of three digits as it needs. -/
def fractionText (nanoseconds : Nat) : String :=
  if nanoseconds = 0 then ""
  else if nanoseconds % 1000000 = 0 then "." ++ Decimal.padded 3 (nanoseconds / 1000000)
  else if nanoseconds % 1000 = 0 then "." ++ Decimal.padded 6 (nanoseconds / 1000)
  else "." ++ Decimal.padded 9 nanoseconds

/-- Write a moment. -/
def write (moment : Timestamp) : String :=
  let (year, month, day) := dateOfDays (moment.seconds / 86400)
  let second := (moment.seconds % 86400).toNat
  let leap := if 1000000000 ≤ moment.nanoseconds then 1 else 0
  yearText year ++ "-" ++ Decimal.padded 2 month ++ "-" ++ Decimal.padded 2 day ++ "T" ++
    Decimal.padded 2 (second / 3600) ++ ":" ++ Decimal.padded 2 (second / 60 % 60) ++ ":" ++
    Decimal.padded 2 (second % 60 + leap) ++
    fractionText (moment.nanoseconds - leap * 1000000000) ++ "Z"

/-! ## Reading -/

/-- A reader takes characters from the front, or refuses. -/
abbrev Reader (α : Type) := StateT (List Char) Option α

/-- Pass over blank space. -/
def skipBlank : Reader Unit :=
  modify fun chars => chars.dropWhile Text.isBlankChar

/-- Take this very character. -/
def expect (c : Char) : Reader Unit := fun
  | first :: rest => if first = c then some ((), rest) else none
  | [] => none

/-- At least one digit, and at most `limit` of them where there is a limit. -/
def digits (limit : Option Nat) : Reader (List Char) := fun chars =>
  let run := chars.takeWhile Char.isDigit
  let taken := match limit with
    | some limit => run.take limit
    | none => run
  if taken.isEmpty then none else some (taken, chars.drop taken.length)

/-- A number of at most two digits between two bounds, behind blank space. -/
def twoDigits (least greatest : Nat) : Reader Nat := do
  skipBlank
  let value := Decimal.digitsValue (← digits (some 2))
  if least ≤ value ∧ value ≤ greatest then return value else failure

/-- A year: up to four digits, or any number of them behind a sign. -/
def year : Reader Int := do
  skipBlank
  match (← get).head? with
  | some '-' =>
    expect '-'
    return -(Decimal.digitsValue (← digits none) : Int)
  | some '+' =>
    expect '+'
    return Decimal.digitsValue (← digits none)
  | _ => return Decimal.digitsValue (← digits (some 4))

/-- The years that dates are kept for. -/
def isKnownYear (year : Int) : Bool :=
  -262143 ≤ year && year ≤ 262142

/-- A date. -/
def date : Reader Int := do
  let year ← year
  skipBlank
  expect '-'
  let month ← twoDigits 1 12
  skipBlank
  expect '-'
  let day ← twoDigits 1 31
  if isKnownYear year && day ≤ daysInMonth year month then return daysOfDate year month day
  else failure

/-- The fraction of a second in nanoseconds; digits beyond the ninth are passed over. -/
def fraction : Reader Nat := do
  match (← get).head? with
  | some '.' =>
    expect '.'
    let run ← digits none
    let kept := run.take 9
    return Decimal.digitsValue kept * Nat.pow 10 (9 - kept.length)
  | _ => return 0

/-- A time of day in seconds and nanoseconds.  A sixtieth second is a leap second: the one
before it goes on. -/
def time : Reader (Nat × Nat) := do
  let hour ← twoDigits 0 23
  skipBlank
  expect ':'
  let minute ← twoDigits 0 59
  skipBlank
  expect ':'
  let second ← twoDigits 0 60
  let nanoseconds ← fraction
  skipBlank
  let whole := hour * 3600 + minute * 60
  if second = 60 then return (whole + 59, 1000000000 + nanoseconds)
  else return (whole + second, nanoseconds)

/-- Two digits that stand for a number up to a bound. -/
def digitPair (greatest : Nat) : Reader Nat := do
  match ← get with
  | a :: b :: rest =>
    let value := Decimal.digitsValue [a, b]
    if a.isDigit && b.isDigit && value ≤ greatest then
      set rest
      return value
    else failure
  | _ => failure

/-- The distance from universal time in seconds: a sign, hours and minutes. -/
def signedOffset : Reader Int := do
  let negative ← match ← get with
    | '+' :: rest => do
      set rest
      pure false
    | c :: rest =>
      if c = '-' ∨ c = '\u2212' then do
        set rest
        pure true
      else failure
    | [] => failure
  let hours ← digitPair 99
  modify fun chars => chars.dropWhile fun c => c = ':' || Text.isBlankChar c
  let minutes ← digitPair 59
  let total : Int := hours * 3600 + minutes * 60
  return if negative then -total else total

/-- The distance from universal time: `Z`, the letters `UTC`, or less than a day. -/
def offset : Reader Int := do
  match ← get with
  | a :: b :: c :: rest =>
    if [a.toLower, b.toLower, c.toLower] = ['u', 't', 'c'] then
      set rest
      return 0
    else pure ()
  | _ => pure ()
  match ← get with
  | c :: rest =>
    if c.toLower = 'z' then
      set rest
      return 0
    else
      let offset ← signedOffset
      if offset.natAbs < 86400 then return offset else failure
  | [] => failure

/-- A moment: a date, a `T` or a blank, a time of day and the distance from universal
time. -/
def moment : Reader Timestamp := do
  let days ← date
  match ← get with
  | c :: rest => if c = 't' ∨ c = 'T' ∨ c = ' ' then set rest else failure
  | [] => failure
  let (second, nanoseconds) ← time
  let offset ← offset
  skipBlank
  let seconds := days * 86400 + second - offset
  if isKnownYear (dateOfDays (seconds / 86400)).1 then return ⟨seconds, nanoseconds⟩
  else failure

/-- Read a whole text as a moment. -/
def read? (text : String) : Option Timestamp :=
  match moment.run text.toList with
  | some (moment, []) => some moment
  | _ => none

end Timestamp

end Gazetteer
