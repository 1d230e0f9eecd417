import Gazetteer.Plane.Binary64.Expansion
import Gazetteer.Plane.Scalar

/-!
# The turn of a path in binary64

The determinant that tells which way a path turns, found in stages: a result that stands
clear of its error bound has the right sign, and only one that does not is made more exact.
The last stage forgets nothing, so that the sign is right in the end unless a product leaves
the range of the format; then the turn is what the rounded numbers say.
-/

namespace Gazetteer.Binary64

/-- Half the distance from one to the next number: `2 ^ (-53)`. -/
def unitRoundoff : Float :=
  1.1102230246251565e-16

/-- The relative error of a rounded determinant of differences. -/
def roughError : Float :=
  (3.0 + 16.0 * unitRoundoff) * unitRoundoff

/-- The relative error of an exact determinant of rounded differences. -/
def productError : Float :=
  (2.0 + 12.0 * unitRoundoff) * unitRoundoff

/-- The relative error of a determinant that is corrected once for the rounding of the
differences. -/
def correctedError : Float :=
  (9.0 + 64.0 * unitRoundoff) * unitRoundoff * unitRoundoff

/-- The relative error of the rounded sum of an expansion. -/
def estimateError : Float :=
  (3.0 + 8.0 * unitRoundoff) * unitRoundoff

/-- Whether a result is at least its error bound away from zero. -/
def clears (result bound : Float) : Bool :=
  result ≥ bound || -result ≥ bound

/-- The determinant of two vectors, without loss. -/
def crossProduct (u v : Coord Float) : Expansion :=
  Expansion.ofDifference (Rounded.product u.x v.y) (Rounded.product u.y v.x)

/-- The vector from one point to another, and what rounding took away from its parts. -/
def vectorWithError (a c : Coord Float) : Coord Float × Coord Float :=
  let x := Rounded.difference a.x c.x
  let y := Rounded.difference a.y c.y
  (⟨x.value, y.value⟩, ⟨x.error, y.error⟩)

/-- A number with the sign of the determinant of `a - c` and `b - c`, given the sum of the
magnitudes of its two products: first from the rounded vectors, then with one correction for
their errors, then from everything. -/
def refinedDeterminant (a b c : Coord Float) (magnitude : Float) : Float :=
  let (u, uError) := vectorWithError a c
  let (v, vError) := vectorWithError b c
  let exact := crossProduct u v
  let estimate := exact.estimate
  let correction := (u.x * vError.y + v.y * uError.x) - (u.y * vError.x + v.x * uError.y)
  let corrected := estimate + correction
  if clears estimate (productError * magnitude) then estimate
  else if uError.x == 0 && uError.y == 0 && vError.x == 0 && vError.y == 0 then estimate
  else if clears corrected (correctedError * magnitude + estimateError * estimate.abs) then
    corrected
  else
    (((exact.add (crossProduct uError v)).add (crossProduct u vError)).add
      (crossProduct uError vError)).leading

/-- A number with the sign of the determinant of `a - c` and `b - c`. -/
def determinant (a b c : Coord Float) : Float :=
  let left := (a.x - c.x) * (b.y - c.y)
  let right := (a.y - c.y) * (b.x - c.x)
  let rough := left - right
  let magnitude := (left + right).abs
  if clears rough (roughError * magnitude) then rough
  else refinedDeterminant a b c magnitude

/-- The turn of a path. -/
def turn (a b c : Coord Float) : Turn :=
  let determinant := determinant a b c
  if determinant > 0 then .left else if determinant < 0 then .right else .straight

end Gazetteer.Binary64
