import Gazetteer.Plane.Shape

/-!
# Scalars of the plane

The numbers that coordinates and distances are made of.  Programs run on binary64; the
class asks for no laws, so that every rule of the plane is stated once for binary64 and
for exact numbers.  Two operations are primitive because an exact answer does not follow
from rounded arithmetic: the turn that a path of three points makes, and the length of a
hypotenuse.
-/

namespace Gazetteer

/-- Which way a path through three points turns at the second one. -/
inductive Turn where
  | left
  | right
  | straight
deriving DecidableEq, Repr

/-- The arithmetic of the plane. -/
class Scalar (K : Type) extends
    Zero K, Add K, Sub K, Neg K, Mul K, Div K, OfScientific K, BEq K, LT K, LE K where
  decLt : DecidableLT K
  decLe : DecidableLE K
  /-- Whether a number is neither infinite nor undefined. -/
  isFinite : K → Bool
  /-- The square root. -/
  sqrt : K → K
  /-- The square root of the sum of two squares. -/
  hypot : K → K → K
  /-- The turn of the path from the first over the second to the third point. -/
  turn : Coord K → Coord K → Coord K → Turn
  /-- The distance to a shape that has nothing to measure to. -/
  farthest : K

namespace Scalar

variable {K : Type} [Scalar K]

instance (first second : K) : Decidable (first < second) := decLt first second

instance (first second : K) : Decidable (first ≤ second) := decLe first second

/-- The absolute value. -/
def abs (value : K) : K :=
  if value < 0 then -value else value

/-- The smaller of two numbers, the first if they cannot be compared. -/
def least (first second : K) : K :=
  if second < first then second else first

/-- The greater of two numbers, the first if they cannot be compared. -/
def greatest (first second : K) : K :=
  if first < second then second else first

/-- Whether a number lies between two bounds, which may come in either order. -/
def between (value bound other : K) : Bool :=
  if bound < other then bound ≤ value && value ≤ other else other ≤ value && value ≤ bound

end Scalar

namespace Coord

variable {K : Type} [Scalar K]

instance : Zero (Coord K) := ⟨⟨0, 0⟩⟩
instance : Add (Coord K) := ⟨fun p q => ⟨p.x + q.x, p.y + q.y⟩⟩
instance : Sub (Coord K) := ⟨fun p q => ⟨p.x - q.x, p.y - q.y⟩⟩

/-- Both parts times a number. -/
def scale (p : Coord K) (factor : K) : Coord K :=
  ⟨p.x * factor, p.y * factor⟩

/-- Both parts divided by a number. -/
def shrink (p : Coord K) (divisor : K) : Coord K :=
  ⟨p.x / divisor, p.y / divisor⟩

/-- Whether a point lies in the upright rectangle that two corners span, edges included. -/
def inCorners (p corner other : Coord K) : Bool :=
  Scalar.between p.x corner.x other.x && Scalar.between p.y corner.y other.y

end Coord

end Gazetteer
