import Gazetteer.Data.Value
import Gazetteer.Decimal.Reading
import Gazetteer.Text.Hex
import Gazetteer.Timestamp

/-!
# The numbers and dates of a settings file

Whole numbers in four bases, real numbers, and dates with or without a time of day.  Dates
are recognised, but no setting is one, so nothing but their presence is kept.
-/

namespace Gazetteer.Toml

open Gazetteer.Data (Value)

/-- Digits of some kind with single underscores between them. -/
def digitRun? (isDigit : Char → Bool) : List Char → Option (List Char × List Char)
  | [] => none
  | c :: rest =>
    if isDigit c then
      match rest with
      | '_' :: more => (digitRun? isDigit more).map fun (digits, rest) => (c :: digits, rest)
      | rest =>
        match digitRun? isDigit rest with
        | some (digits, rest) => some (c :: digits, rest)
        | none => if rest.head?.any isDigit then none else some ([c], rest)
    else none

/-- A sign, if there is one. -/
def sign? : List Char → Option Bool × List Char
  | '+' :: rest => (some false, rest)
  | '-' :: rest => (some true, rest)
  | chars => (none, chars)

/-- Decimal digits; a zero at the front stands alone. -/
def decimalRun? : List Char → Option (List Char × List Char)
  | '0' :: rest => some (['0'], rest)
  | chars => digitRun? Char.isDigit chars

/-- The value of digits in a base. -/
def valueIn? (base : Nat) (digits : List Char) : Option Nat :=
  digits.foldlM (fun value c => (Text.hexDigit? c).map fun digit => base * value + digit) 0

/-- A whole number, if it fits sixty-four bits with a sign. -/
def integerValue? (negative : Bool) (magnitude : Nat) : Option Value :=
  let value : Int := if negative then -(magnitude : Int) else magnitude
  if Int64.minValue.toInt ≤ value ∧ value ≤ Int64.maxValue.toInt then some (.integer value)
  else none

/-- A whole number in a base other than ten, behind its mark. -/
def basedInteger? (base : Nat) (isDigit : Char → Bool) (chars : List Char) :
    Option (Value × List Char) := do
  let (digits, rest) ← digitRun? isDigit chars
  let magnitude ← valueIn? base digits
  some (← integerValue? false magnitude, rest)

/-- A whole number. -/
def integer? : List Char → Option (Value × List Char)
  | '0' :: 'x' :: rest => basedInteger? 16 (fun c => (Text.hexDigit? c).isSome) rest
  | '0' :: 'o' :: rest => basedInteger? 8 (fun c => '0' ≤ c && c ≤ '7') rest
  | '0' :: 'b' :: rest => basedInteger? 2 (fun c => c = '0' || c = '1') rest
  | chars => do
    let (sign, rest) := sign? chars
    let (digits, rest) ← decimalRun? rest
    some (← integerValue? (sign == some true) (Decimal.digitsValue digits), rest)

/-- What a part of a number may be: absent, present, or begun and not finished. -/
inductive Part where
  | absent
  | present (digits : List Char) (rest : List Char)
  | broken

/-- The fraction of a number. -/
def fractionPart : List Char → Part
  | '.' :: rest =>
    match digitRun? Char.isDigit rest with
    | some (digits, rest) => .present digits rest
    | none => .broken
  | _ => .absent

/-- The exponent of a number. -/
def exponentPart : List Char → Option (Option Int × List Char)
  | c :: rest =>
    if c = 'e' ∨ c = 'E' then
      let (sign, rest) := sign? rest
      (digitRun? Char.isDigit rest).map fun (digits, rest) =>
        let value : Int := Decimal.digitsValue digits
        (some (if sign == some true then -value else value), rest)
    else some (none, c :: rest)
  | [] => some (none, [])

/-- The real number with these parts.  One too large to write as a finite number is refused,
unless it is negative. -/
def realValue? (negative : Bool) (whole fraction : List Char) (exponent : Int) : Option Value :=
  let pattern := Decimal.binary64.ofDecimal (Decimal.digitsValue (whole ++ fraction))
    (exponent - fraction.length)
  if pattern = Decimal.binary64.infinity ∧ !negative then none
  else some (.real (Decimal.ofPattern negative pattern))

/-- A number in words: infinite, or not a number. -/
def wordNumber? (negative : Bool) : List Char → Option (Value × List Char)
  | 'i' :: 'n' :: 'f' :: rest =>
    some (.real (Decimal.ofPattern negative Decimal.binary64.infinity), rest)
  | 'n' :: 'a' :: 'n' :: rest => some (.real (0.0 / 0.0), rest)
  | _ => none

/-- A real or a whole number: real if it has a fraction or an exponent. -/
def number? (chars : List Char) : Option (Value × List Char) :=
  let (sign, body) := sign? chars
  let negative := sign == some true
  match wordNumber? negative body with
  | some found => some found
  | none => do
    match decimalRun? body with
    | none => integer? chars
    | some (whole, rest) =>
      match fractionPart rest with
      | .broken => none
      | .present fraction rest =>
        let (exponent, rest) ← exponentPart rest
        some (← realValue? negative whole fraction (exponent.getD 0), rest)
      | .absent =>
        match ← exponentPart rest with
        | (some exponent, rest) => some (← realValue? negative whole [] exponent, rest)
        | (none, _) => integer? chars

/-! ## Dates -/

/-- A number of exactly `count` digits between two bounds. -/
def fixedDigits? (count least greatest : Nat) (chars : List Char) : Option (Nat × List Char) :=
  let digits := chars.take count
  if digits.length = count ∧ digits.all Char.isDigit then
    let value := Decimal.digitsValue digits
    if least ≤ value ∧ value ≤ greatest then some (value, chars.drop count) else none
  else none

/-- The characters behind a given one. -/
def behind? (c : Char) : List Char → Option (List Char)
  | first :: rest => if first = c then some rest else none
  | [] => none

/-- A date: four digits of a year, and a month and a day that it has. -/
def date? (chars : List Char) : Option (List Char) := do
  let (year, rest) ← fixedDigits? 4 0 9999 chars
  let (month, rest) ← fixedDigits? 2 1 12 (← behind? '-' rest)
  let (_, rest) ← fixedDigits? 2 1 (Timestamp.daysInMonth year month) (← behind? '-' rest)
  some rest

/-- A time of day, with a leap second allowed and a fraction if there is one. -/
def time? (chars : List Char) : Option (List Char) := do
  let (_, rest) ← fixedDigits? 2 0 23 chars
  let (_, rest) ← fixedDigits? 2 0 59 (← behind? ':' rest)
  let (_, rest) ← fixedDigits? 2 0 60 (← behind? ':' rest)
  match rest with
  | '.' :: fraction =>
    let digits := fraction.takeWhile Char.isDigit
    if digits.isEmpty then none else some (fraction.drop digits.length)
  | rest => some rest

/-- The distance of a time from universal time, if it is given. -/
def offset? (chars : List Char) : Option (List Char) :=
  match chars with
  | 'Z' :: rest => some rest
  | 'z' :: rest => some rest
  | c :: rest =>
    if c = '+' ∨ c = '-' then do
      let (_, rest) ← fixedDigits? 2 0 23 rest
      let (_, rest) ← fixedDigits? 2 0 59 (← behind? ':' rest)
      some rest
    else some chars
  | [] => some chars

/-- A date, a time, or both.  It stands for an object that holds nothing a setting knows. -/
def dateTime? (chars : List Char) : Option (Value × List Char) :=
  match date? chars with
  | some rest =>
    let timed : Option (List Char) :=
      match rest with
      | c :: more => if c = 'T' ∨ c = 't' ∨ c = ' ' then time? more else none
      | [] => none
    match timed with
    | some rest => (offset? rest).map fun rest => (.object [], rest)
    | none => some (.object [], rest)
  | none => (time? chars).map fun rest => (.object [], rest)

end Gazetteer.Toml
