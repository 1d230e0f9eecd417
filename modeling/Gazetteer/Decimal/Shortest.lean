import Gazetteer.Decimal.Binary

/-!
# The shortest decimal that reads back

A number is written with the fewest significant digits that read back as the same
number; of two such texts of one length the nearer to the exact value is taken.  How
the digits are laid out is a separate decision, made by a `Layout`: messages write the
digits out in full, documents use an exponent outside a middle range and mark a whole
number with `.0`.
-/

namespace Gazetteer.Decimal

/-- A positive decimal: the integer `digits` times a power of ten. -/
structure Scaled where
  digits : Nat
  exponent : Int
deriving DecidableEq, Repr

namespace Scaled

/-- The decimal as a fraction. -/
def fraction (decimal : Scaled) : Nat × Nat :=
  match decimal.exponent with
  | .ofNat e => (decimal.digits * Nat.pow 10 e, 1)
  | .negSucc e => (decimal.digits, Nat.pow 10 (e + 1))

/-- The binary64 magnitude that a decimal reads as. -/
def pattern (decimal : Scaled) : Nat :=
  binary64.nearest decimal.fraction.1 decimal.fraction.2

/-- Zeros at the end of the digits move into the exponent; `fuel` bounds their number. -/
def strip (decimal : Scaled) : (fuel : Nat) → Scaled
  | 0 => decimal
  | fuel + 1 =>
    if decimal.digits ≠ 0 ∧ decimal.digits % 10 = 0 then
      strip ⟨decimal.digits / 10, decimal.exponent + 1⟩ fuel
    else decimal

end Scaled

/-- The exponent of the leading decimal digit of a positive fraction: the `k` with
`10 ^ k ≤ numerator / denominator < 10 ^ (k + 1)`. -/
def leadingExponent (numerator denominator : Nat) : Int :=
  if denominator ≤ numerator then
    ((Nat.toDigits 10 (numerator / denominator)).length : Int) - 1
  else
    let digits := (Nat.toDigits 10 (denominator / numerator)).length
    let exact := denominator = numerator * Nat.pow 10 (digits - 1)
    if exact then 1 - (digits : Int) else -(digits : Int)

/-- The two neighbours of a fraction on the grid of decimals with `count` digits, the
nearer one first; of two equally near ones the even one is first. -/
def neighbours (numerator denominator count : Nat) : List Scaled :=
  let unit : Int := leadingExponent numerator denominator - count + 1
  let (n, d) := match unit with
    | .ofNat e => (numerator, denominator * Nat.pow 10 e)
    | .negSucc e => (numerator * Nat.pow 10 (e + 1), denominator)
  let below := n / d
  let near := roundHalfEven n d
  let far := if near = below then below + 1 else below
  [⟨near, unit⟩, ⟨far, unit⟩]

/-- Try 1, 2, 3, … digits until a neighbour reads back as `pattern`. -/
def search (numerator denominator pattern : Nat) : (fuel count : Nat) → Scaled
  | 0, _ => ⟨0, 0⟩
  | fuel + 1, count =>
    match (neighbours numerator denominator count).find? fun s => s.pattern = pattern with
    | some found => found
    | none => search numerator denominator pattern fuel (count + 1)

/-- The shortest decimal of a positive magnitude `significand * 2 ^ exponent`.
Seventeen digits always suffice for binary64. -/
def shortest (significand : Nat) (exponent : Int) : Scaled :=
  let (numerator, denominator) := scale significand 1 exponent
  (search numerator denominator (binary64.nearest numerator denominator) 17 1).strip 20

/-- How the digits of a number are laid out. -/
structure Layout where
  /-- The least exponent of the leading digit that is written out in full, if there is one. -/
  least : Option Int
  /-- The greatest exponent of the leading digit that is written out in full, if there is one. -/
  greatest : Option Int
  /-- Whether a whole number that is written out in full ends in `.0`. -/
  marksWhole : Bool
deriving Repr

/-- Messages write every digit out and do not mark whole numbers. -/
def inMessages : Layout := ⟨none, none, false⟩

/-- Documents write numbers from `0.00001` to below `10 ^ 16` out in full, and mark whole
numbers. -/
def inDocuments : Layout := ⟨some (-5), some 15, true⟩

/-- Whether the layout writes a number whose leading digit has this exponent out in full. -/
def Layout.writesOut (layout : Layout) (leading : Int) : Bool :=
  layout.least.all (fun least => least ≤ leading) &&
    layout.greatest.all (fun greatest => leading ≤ greatest)

/-- All digits, with the point where it belongs. -/
def writtenOut (marksWhole : Bool) (digits : List Char) (exponent : Int) : String :=
  if 0 ≤ exponent then
    String.ofList (digits ++ List.replicate exponent.toNat '0') ++ if marksWhole then ".0" else ""
  else
    let places := (-exponent).toNat
    let all := List.replicate (places + 1 - digits.length) '0' ++ digits
    let whole := all.length - places
    String.ofList (all.take whole) ++ "." ++ String.ofList (all.drop whole)

/-- One digit, the point and the others, and the exponent of the first. -/
def withExponent (digits : List Char) (leading : Int) : String :=
  let tail := digits.drop 1
  String.ofList (digits.take 1) ++
    (if tail.isEmpty then "" else "." ++ String.ofList tail) ++ "e" ++ toString leading

/-- Write a number with its shortest digits. -/
def Layout.write (layout : Layout) (value : Float) : String :=
  match Exact.ofFloat value with
  | .notANumber => "NaN"
  | .infinite negative => if negative then "-inf" else "inf"
  | .finite negative significand exponent =>
    let sign := if negative then "-" else ""
    if significand = 0 then sign ++ writtenOut layout.marksWhole ['0'] 0
    else
      let decimal := shortest significand exponent
      let digits := Nat.toDigits 10 decimal.digits
      let leading := decimal.exponent + digits.length - 1
      sign ++
        if layout.writesOut leading then writtenOut layout.marksWhole digits decimal.exponent
        else withExponent digits leading

end Gazetteer.Decimal
