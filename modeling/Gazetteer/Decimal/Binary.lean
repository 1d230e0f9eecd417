/-!
# Binary floating point, exactly

A binary floating-point number read as an exact fraction, and the fraction nearest to
which a number stands.  Reading and printing numbers in this library rests on these two
functions; neither rounds twice.
-/

namespace Gazetteer.Decimal

/-- The exact meaning of a binary64 number.  A finite one is
`(-1)^negative * significand * 2^exponent`. -/
inductive Exact where
  | notANumber
  | infinite (negative : Bool)
  | finite (negative : Bool) (significand : Nat) (exponent : Int)
deriving DecidableEq, Repr

/-- A binary interchange format, given by its precision and its smallest exponent: the
finite magnitudes are `m * 2^e` with `m < 2^precision` and `leastExponent ≤ e`, up to
the pattern `infinity`. -/
structure Format where
  precision : Nat
  leastExponent : Int
  infinity : Nat
deriving Repr

/-- Double precision. -/
def binary64 : Format := ⟨53, -1074, 2047 * Nat.pow 2 52⟩

/-- Single precision. -/
def binary32 : Format := ⟨24, -149, 255 * Nat.pow 2 23⟩

namespace Exact

/-- Read the fields of a binary64 number. -/
def ofFloat (value : Float) : Exact :=
  let bits : Nat := value.toBits.toNat
  let negative := Nat.pow 2 63 ≤ bits
  let field : Nat := bits / Nat.pow 2 52 % Nat.pow 2 11
  let fraction : Nat := bits % Nat.pow 2 52
  if field = 2047 then
    if fraction = 0 then .infinite negative else .notANumber
  else if field = 0 then .finite negative fraction (-1074)
  else .finite negative (Nat.pow 2 52 + fraction) ((field : Int) - 1075)

end Exact

/-- The quotient `numerator / denominator` rounded to the nearest integer, a half to the
even neighbour. -/
def roundHalfEven (numerator denominator : Nat) : Nat :=
  let quotient := numerator / denominator
  let twice := 2 * (numerator % denominator)
  if twice < denominator then quotient
  else if denominator < twice then quotient + 1
  else quotient + quotient % 2

/-- The pair `(n, d)` with `n / d = numerator / denominator * 2 ^ shift`. -/
def scale (numerator denominator : Nat) : Int → Nat × Nat
  | .ofNat shift => (numerator * Nat.pow 2 shift, denominator)
  | .negSucc shift => (numerator, denominator * Nat.pow 2 (shift + 1))

namespace Format

/-- The exponent of the unit in the last place of the fraction `numerator / denominator`. -/
def unitExponent (format : Format) (numerator denominator : Nat) : Int :=
  let guess : Int := (Nat.log2 numerator : Int) - Nat.log2 denominator
  let scaled := scale numerator denominator (-guess)
  let top := if scaled.2 ≤ scaled.1 then guess else guess - 1
  max format.leastExponent (top - format.precision + 1)

/-- The bit pattern, sign apart, of the number nearest to a fraction; ties go to the even
pattern and what lies beyond the greatest finite number is infinite.  Patterns of
neighbouring numbers are neighbouring integers, so a significand that rounds up to the
next power of two carries into the exponent by itself. -/
def nearest (format : Format) (numerator denominator : Nat) : Nat :=
  if numerator = 0 then 0
  else
    let unit := format.unitExponent numerator denominator
    let scaled := scale numerator denominator (-unit)
    let significand := roundHalfEven scaled.1 scaled.2
    let pattern :=
      (unit - format.leastExponent).toNat * Nat.pow 2 (format.precision - 1) + significand
    min pattern format.infinity

end Format

/-- The binary64 number with a given sign and magnitude pattern. -/
def ofPattern (negative : Bool) (pattern : Nat) : Float :=
  Float.ofBits (UInt64.ofNat (pattern + if negative then Nat.pow 2 63 else 0))

end Gazetteer.Decimal
