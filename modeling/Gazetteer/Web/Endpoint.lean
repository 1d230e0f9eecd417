import Gazetteer.Decimal.Reading
import Gazetteer.Text.Hex

/-!
# Addresses to listen on

An address is given by number, never by name: four numbers with points between them, or
eight groups of hexadecimal digits in brackets, and behind it a colon and the number of
the service there.  Readers take their part from the front of the characters and hand back
the rest.
-/

namespace Gazetteer.Web.Endpoint

/-- The characters behind a given one. -/
def behind? (c : Char) : List Char → Option (List Char)
  | first :: rest => if first = c then some rest else none
  | [] => none

/-- Decimal digits of a number up to `greatest`. -/
def number? (greatest : Nat) (chars : List Char) : Option (List Char) :=
  let digits := chars.takeWhile Char.isDigit
  if digits = [] ∨ greatest < Decimal.digitsValue digits then none
  else some (chars.dropWhile Char.isDigit)

/-- One of the four numbers of a short address: at most three digits, and no zero in front
of others. -/
def octet? (chars : List Char) : Option (List Char) :=
  let digits := chars.takeWhile Char.isDigit
  if 3 < digits.length ∨ (digits.head? = some '0' ∧ 1 < digits.length) then none
  else number? 255 chars

/-- A short address. -/
def short? (chars : List Char) : Option (List Char) := do
  let rest ← octet? chars
  let rest ← octet? (← behind? '.' rest)
  let rest ← octet? (← behind? '.' rest)
  octet? (← behind? '.' rest)

/-- One of the groups of a long address: at most four hexadecimal digits. -/
def group? (chars : List Char) : Option (List Char) :=
  let digits := chars.takeWhile fun c => (Text.hexDigit? c).isSome
  if digits = [] ∨ 4 < digits.length then none else some (chars.drop digits.length)

/-- At most `limit` groups with colons between them, the first of which stands without one
when `first` is set.  The number of groups comes with the rest.  A short address may stand
at the end for two groups. -/
def groups (first : Bool) : (limit : Nat) → List Char → Nat × Bool × List Char
  | 0, chars => (0, false, chars)
  | limit + 1, chars =>
    match if first then some chars else behind? ':' chars with
    | none => (0, false, chars)
    | some body =>
      match if 0 < limit then short? body else none with
      | some rest => (2, true, rest)
      | none =>
        match group? body with
        | none => (0, false, chars)
        | some rest =>
          let (count, mixed, rest) := groups false limit rest
          (count + 1, mixed, rest)

/-- A long address.  Two colons stand for at least one group of zeros. -/
def long? (chars : List Char) : Option (List Char) :=
  let (count, mixed, rest) := groups true 8 chars
  if count = 8 then some rest
  else if mixed then none
  else do
    let rest ← behind? ':' (← behind? ':' rest)
    some (groups true (8 - (count + 1)) rest).2.2

/-- The number of a network card behind a long address, if there is one. -/
def scope? (chars : List Char) : Option (List Char) :=
  match chars with
  | '%' :: rest => number? (UInt32.size - 1) rest
  | chars => some chars

/-- The colon and the number of the service at the end. -/
def service? (chars : List Char) : Option (List Char) := do
  number? (UInt16.size - 1) (← behind? ':' chars)

/-- A long address in brackets. -/
def bracketed? (chars : List Char) : Option (List Char) := do
  behind? ']' (← scope? (← long? (← behind? '[' chars)))

/-- Whether a text is an address with the number of a service. -/
def isValid (text : String) : Bool :=
  let ends (address : Option (List Char)) : Bool := address.bind service? == some []
  ends (short? text.toList) || ends (bracketed? text.toList)

end Gazetteer.Web.Endpoint
