import Gazetteer.Decimal.Binary

/-!
# The hypotenuse in binary64

The root of a sum of two squares, less the error of that root as the rounded numbers show
it.  The sides are scaled by a power of two where their squares would leave the range of the
format, and the shorter side only rounds the longer one where it is too short to count.
-/

namespace Gazetteer.Binary64

/-- A power of two with an exponent from `-1022` to `1023`. -/
def powerOfTwo (exponent : Int) : Float :=
  Decimal.ofPattern false ((exponent + 1023).toNat * Nat.pow 2 52)

/-- The hypotenuse of two sides whose squares are in range: the rounded root, corrected by
the difference of its square from the sum of the squares. -/
def correctedRoot (longer shorter : Float) : Float :=
  let root := (longer * longer + shorter * shorter).sqrt
  let excess :=
    if root ≤ 2.0 * shorter then
      let beyond := root - shorter
      longer * (2.0 * beyond - longer) + (beyond - 2.0 * (longer - shorter)) * beyond
    else
      let beyond := root - longer
      2.0 * beyond * (longer - 2.0 * shorter) +
        ((4.0 * beyond - shorter) * shorter + beyond * beyond)
  root - excess / (2.0 * root)

/-- The hypotenuse of two finite sides. -/
def hypotenuse (longer shorter : Float) : Float :=
  let scale := powerOfTwo (-600)
  let negligible := powerOfTwo (-54)
  if longer > powerOfTwo 511 then
    if shorter ≤ longer * negligible then longer + shorter
    else correctedRoot (longer * scale) (shorter * scale) / scale
  else if shorter < powerOfTwo (-459) then
    if longer ≥ shorter / negligible then longer + shorter
    else correctedRoot (longer / scale) (shorter / scale) * scale
  else if shorter ≤ longer * negligible then longer + shorter
  else correctedRoot longer shorter

/-- The square root of the sum of two squares; infinite as soon as one side is. -/
def hypot (x y : Float) : Float :=
  if x.isFinite ∧ y.isFinite then
    let (x, y) := (x.abs, y.abs)
    if x < y then hypotenuse y x else hypotenuse x y
  else if x.isInf ∨ y.isInf then 1.0 / 0.0
  else 0.0 / 0.0

end Gazetteer.Binary64
