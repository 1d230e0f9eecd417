import Gazetteer.Plane.Binary64.Determinant
import Gazetteer.Plane.Binary64.Hypotenuse

/-!
# Binary64 as the scalars of the plane

The instance that programs run on.  Sums, products, quotients and roots are rounded; the turn
of a path and the hypotenuse are the two operations that are found with more care.
-/

namespace Gazetteer.Binary64

/-- The greatest finite number. -/
def greatest : Float :=
  Float.ofBits 0x7FEFFFFFFFFFFFFF

instance : Scalar Float where
  zero := 0
  decLt := inferInstance
  decLe := inferInstance
  isFinite := Float.isFinite
  sqrt := Float.sqrt
  hypot := hypot
  turn := turn
  farthest := greatest

end Gazetteer.Binary64
