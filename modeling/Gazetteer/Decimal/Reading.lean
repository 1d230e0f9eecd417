import Gazetteer.Decimal.Binary

/-!
# Reading numbers

Decimal texts become the nearest binary number, and whole numbers are read within given
bounds.  Both readers take the whole text or refuse it, and say why.
-/

namespace Gazetteer.Decimal

/-- Why a text is not a decimal number. -/
inductive NumberFault where
  | empty
  | invalid
deriving DecidableEq, Repr

/-- The wording of a fault. -/
def NumberFault.message : NumberFault → String
  | .empty => "cannot parse float from empty string"
  | .invalid => "invalid float literal"

/-- Why a text is not a whole number within bounds. -/
inductive IntegerFault where
  | empty
  | invalidDigit
  | tooLarge
  | tooSmall
deriving DecidableEq, Repr

/-- The wording of a fault. -/
def IntegerFault.message : IntegerFault → String
  | .empty => "cannot parse integer from empty string"
  | .invalidDigit => "invalid digit found in string"
  | .tooLarge => "number too large to fit in target type"
  | .tooSmall => "number too small to fit in target type"

/-- The value of a run of decimal digits. -/
def digitsValue (digits : List Char) : Nat :=
  digits.foldl (fun value c => 10 * value + (c.toNat - '0'.toNat)) 0

/-- The pattern of the number nearest to `digits * 10 ^ exponent`.  The leading digit
stands at `10 ^ (length + exponent - 1)`, so outside four hundred places of the point the
result is already infinite or zero, and the power of ten need not be formed. -/
def Format.ofDecimal (format : Format) (digits : Nat) (exponent : Int) : Nat :=
  if digits = 0 then 0
  else
    let magnitude : Int := (Nat.toDigits 10 digits).length + exponent
    if 400 < magnitude then format.infinity
    else if magnitude < -400 then 0
    else
      match exponent with
      | .ofNat e => format.nearest (digits * Nat.pow 10 e) 1
      | .negSucc e => format.nearest digits (Nat.pow 10 (e + 1))

/-- A signed number in a format: a bit pattern for the magnitude, or not a number. -/
inductive Reading where
  | notANumber
  | magnitude (negative : Bool) (pattern : Nat)
deriving DecidableEq, Repr

/-- The sign in front of a number, and what follows it. -/
def takeSign : List Char → Bool × List Char
  | '-' :: rest => (true, rest)
  | '+' :: rest => (false, rest)
  | chars => (false, chars)

/-- The exponent part of a number: nothing, or `e`, a sign and at least one digit. -/
def readExponent : List Char → Option Int
  | [] => some 0
  | c :: rest =>
    if c.toLower = 'e' then
      let (negative, digits) := takeSign rest
      if digits.isEmpty || !digits.all Char.isDigit then none
      else some (if negative then -(digitsValue digits : Int) else digitsValue digits)
    else none

/-- Digits, a point, digits and an exponent; one of the two runs of digits may be empty. -/
def readUnsigned (format : Format) (chars : List Char) : Option Nat :=
  let whole := chars.takeWhile Char.isDigit
  let afterWhole := chars.dropWhile Char.isDigit
  let (fraction, afterFraction) := match afterWhole with
    | '.' :: rest => (rest.takeWhile Char.isDigit, rest.dropWhile Char.isDigit)
    | _ => ([], afterWhole)
  if whole.isEmpty && fraction.isEmpty then none
  else (readExponent afterFraction).map fun exponent =>
    format.ofDecimal (digitsValue (whole ++ fraction)) (exponent - fraction.length)

/-- Read a number in a format.  Besides decimals the words `inf`, `infinity` and `nan` are
numbers, in any case of letters. -/
def Format.read (format : Format) (text : String) : Except NumberFault Reading :=
  let chars := text.toList
  if chars.isEmpty then .error .empty
  else
    let (negative, body) := takeSign chars
    match readUnsigned format body with
    | some pattern => .ok (.magnitude negative pattern)
    | none =>
      let word := String.ofList (body.map Char.toLower)
      if word = "inf" ∨ word = "infinity" then .ok (.magnitude negative format.infinity)
      else if word = "nan" then .ok .notANumber
      else .error .invalid

/-- Read a binary64 number. -/
def readFloat (text : String) : Except NumberFault Float :=
  (binary64.read text).map fun
    | .notANumber => 0.0 / 0.0
    | .magnitude negative pattern => ofPattern negative pattern

/-- Digits are taken from the left; each one moves the value away from zero in the
direction of the sign, and the first that leaves the bounds or is no digit decides. -/
def readDigits (least greatest : Int) (negative : Bool) :
    (value : Int) → List Char → Except IntegerFault Int
  | value, [] => .ok value
  | value, c :: rest =>
    if !c.isDigit then .error .invalidDigit
    else
      let digit : Int := (c.toNat - '0'.toNat : Nat)
      let next := if negative then 10 * value - digit else 10 * value + digit
      if next < least then .error .tooSmall
      else if greatest < next then .error .tooLarge
      else readDigits least greatest negative next rest

/-- Read a whole number between two bounds.  A plus sign is always allowed, a minus sign
only where the bounds reach below zero. -/
def readInteger (least greatest : Int) (text : String) : Except IntegerFault Int :=
  match text.toList with
  | [] => .error .empty
  | '+' :: c :: rest => readDigits least greatest false 0 (c :: rest)
  | '-' :: c :: rest =>
    if least < 0 then readDigits least greatest true 0 (c :: rest)
    else .error .invalidDigit
  | chars => readDigits least greatest false 0 chars

end Gazetteer.Decimal
