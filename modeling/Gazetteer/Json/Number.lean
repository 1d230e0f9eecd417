import Gazetteer.Data.Value
import Gazetteer.Decimal.Reading

/-!
# Numbers of JSON

The grammar of a number, and its value.  A number without fraction and exponent is whole as
long as it fits 64 bits.  Any other is a real number, found from the digits that fit 64 bits
and a power of ten: both are rounded and so is their product or quotient, so the value may
be a neighbour of the nearest number.  A number beyond the greatest one has no value.
-/

namespace Gazetteer.Json

open Gazetteer.Data (Value)

/-! ## Real numbers -/

/-- The number nearest to a power of ten. -/
def powerOfTen (exponent : Nat) : Float :=
  Decimal.ofPattern false (Decimal.binary64.nearest (Nat.pow 10 exponent) 1)

/-- The greatest exponent of a power of ten that is finite. -/
def greatestPower : Nat := 308

/-- A number times a power of ten; nothing if it becomes too large. -/
def raise? (value : Float) (exponent : Nat) : Option Float :=
  if value == 0 then some value
  else if greatestPower < exponent then none
  else
    let raised := value * powerOfTen exponent
    if raised.isInf then none else some raised

/-- A number divided by a power of ten, in several steps where the power is too large. -/
def lower (value : Float) (exponent : Nat) : Float :=
  if value == 0 then value
  else if exponent ≤ greatestPower then value / powerOfTen exponent
  else lower (value / powerOfTen greatestPower) (exponent - greatestPower)
termination_by exponent
decreasing_by simp only [greatestPower] at *; omega

/-- A significand and the power of ten that it is multiplied by. -/
structure Scaled where
  significand : Nat
  exponent : Int
deriving DecidableEq, Repr

/-- Append digits to a number as long as it fits 64 bits.  The digits from the first one on
that does not fit are left. -/
def appendDigits (value : Nat) : List Char → Nat × List Char
  | [] => (value, [])
  | c :: rest =>
    let next := 10 * value + (c.toNat - '0'.toNat)
    if next < UInt64.size then appendDigits next rest else (value, c :: rest)

namespace Scaled

/-- The digits of a number in front of the point and behind it, and its exponent.  Of digits
that do not fit, those in front of the point still count as places; the others are dropped. -/
def ofDigits (whole places : List Char) (exponent : Int) : Scaled :=
  let (value, wholeLeft) := appendDigits 0 whole
  let (value, placesLeft) := appendDigits value places
  ⟨value, exponent + wholeLeft.length + placesLeft.length - places.length⟩

/-- The real number that a significand and an exponent stand for, if it is not too large. -/
def toFloat? (scaled : Scaled) : Option Float :=
  let value := Decimal.ofPattern false (Decimal.binary64.nearest scaled.significand 1)
  match scaled.exponent with
  | .ofNat exponent => raise? value exponent
  | .negSucc exponent => some (lower value (exponent + 1))

end Scaled

/-! ## Numbers -/

/-- The whole number that digits stand for.  It has at most 63 bits and a sign or 64 bits, and
`-0` is not a whole number. -/
def wholeValue? (negative : Bool) (digits : List Char) : Option Int :=
  match appendDigits 0 digits with
  | (magnitude, []) =>
    if !negative then some magnitude
    else if magnitude ≠ 0 ∧ Int64.minValue.toInt ≤ -(magnitude : Int) then some (-(magnitude : Int))
    else none
  | _ => none

/-- The real number that digits and an exponent stand for. -/
def realValue (negative : Bool) (whole places : List Char) (exponent : Int) : Value :=
  match (Scaled.ofDigits whole places exponent).toFloat? with
  | none => .meaningless
  | some value => .real (if negative then -value else value)

/-- The value of a number. -/
def numberValue (negative : Bool) (whole : List Char) (fraction : Option (List Char))
    (exponent : Option Int) : Value :=
  match fraction, exponent, wholeValue? negative whole with
  | none, none, some value => .integer value
  | _, _, _ => realValue negative whole (fraction.getD []) (exponent.getD 0)

/-- The digits at the front, at least one. -/
def digits? (chars : List Char) : Option (List Char × List Char) :=
  let digits := chars.takeWhile Char.isDigit
  if digits.isEmpty then none else some (digits, chars.dropWhile Char.isDigit)

/-- A fraction, if a point follows. -/
def fraction? : List Char → Option (Option (List Char) × List Char)
  | '.' :: rest => (digits? rest).map fun (digits, rest) => (some digits, rest)
  | chars => some (none, chars)

/-- An exponent, if an `e` follows. -/
def exponent? : List Char → Option (Option Int × List Char)
  | c :: rest =>
    if c = 'e' ∨ c = 'E' then
      let (negative, rest) := Decimal.takeSign rest
      (digits? rest).map fun (digits, rest) =>
        let value : Int := Decimal.digitsValue digits
        (some (if negative then -value else value), rest)
    else some (none, c :: rest)
  | [] => some (none, [])

/-- The number that characters write, all of them.  A leading zero stands alone. -/
def number? (chars : List Char) : Option Value := do
  let (negative, chars) := match chars with
    | '-' :: rest => (true, rest)
    | _ => (false, chars)
  let (whole, chars) ← digits? chars
  if whole.head? = some '0' ∧ whole.length ≠ 1 then none
  else
    let (fraction, chars) ← fraction? chars
    let (exponent, chars) ← exponent? chars
    if chars.isEmpty then some (numberValue negative whole fraction exponent) else none

end Gazetteer.Json
