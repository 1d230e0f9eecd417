import Gazetteer.Decimal.Binary

/-!
# Decimals with a fixed number of places

A number written with a given number of places behind the point: its exact value is
rounded once, a half going to the even neighbour, and all digits before the point are
written, however many there are.  A result of zero has no sign.
-/

namespace Gazetteer.Decimal

/-- The digits of `value` in base ten, with zeros in front up to `width`. -/
def padded (width value : Nat) : String :=
  let digits := Nat.toDigits 10 value
  String.ofList (List.replicate (width - digits.length) '0' ++ digits)

/-- The magnitude `significand * 2 ^ exponent` in units of `10 ^ (-places)`, rounded. -/
def inUnits (places significand : Nat) (exponent : Int) : Nat :=
  let scaled := scale (significand * Nat.pow 10 places) 1 exponent
  roundHalfEven scaled.1 scaled.2

/-- Write a number with `places` decimals. -/
def fixed (places : Nat) (value : Float) : String :=
  match Exact.ofFloat value with
  | .notANumber => "NaN"
  | .infinite negative => if negative then "-inf" else "inf"
  | .finite negative significand exponent =>
    let units := inUnits places significand exponent
    let sign := if negative && units ≠ 0 then "-" else ""
    let point := if places = 0 then "" else "." ++ padded places (units % Nat.pow 10 places)
    sign ++ toString (units / Nat.pow 10 places) ++ point

end Gazetteer.Decimal
