import Mathlib.Analysis.Real.Sqrt
import Mathlib.Data.Rat.Sqrt
import Gazetteer.Plane.Scalar

/-!
# Exact numbers as the scalars of the plane

In an ordered field nothing is rounded, and the turn of a path is the sign of a determinant.
Of roots it is asked only that they undo squaring: that holds of the real numbers, and also
of the rational ones, with which everything can be computed.
-/

namespace Gazetteer

/-- An ordered field with a root that undoes squaring. -/
class ExactRoot (K : Type) [Field K] [LinearOrder K] where
  root : K → K
  root_nonneg : ∀ value, 0 ≤ root value
  root_mul_self : ∀ {value}, 0 ≤ value → root (value * value) = value

noncomputable instance : ExactRoot ℝ where
  root := Real.sqrt
  root_nonneg := Real.sqrt_nonneg
  root_mul_self := Real.sqrt_mul_self

instance : ExactRoot ℚ where
  root := Rat.sqrt
  root_nonneg := Rat.sqrt_nonneg
  root_mul_self {value} nonneg := by rw [Rat.sqrt_eq, abs_of_nonneg nonneg]

namespace Exact

variable {K : Type} [Field K] [LinearOrder K]

/-- The determinant of `a - c` and `b - c`: positive where the path from `a` over `b` to `c`
turns to the left. -/
def determinant (a b c : Coord K) : K :=
  (a.x - c.x) * (b.y - c.y) - (a.y - c.y) * (b.x - c.x)

instance (priority := low) scalar [ExactRoot K] : Scalar K where
  decLt := inferInstance
  decLe := inferInstance
  isFinite _ := true
  sqrt := ExactRoot.root
  hypot x y := ExactRoot.root (x * x + y * y)
  turn a b c :=
    if 0 < determinant a b c then .left
    else if determinant a b c < 0 then .right
    else .straight
  farthest := (2 ^ 53 - 1) * 2 ^ 971

variable [ExactRoot K]

theorem least_eq_min (first second : K) : Scalar.least first second = min first second := by
  unfold Scalar.least
  split_ifs with less
  · exact (min_eq_right less.le).symm
  · exact (min_eq_left (not_lt.mp less)).symm

theorem greatest_eq_max (first second : K) : Scalar.greatest first second = max first second := by
  unfold Scalar.greatest
  split_ifs with less
  · exact (max_eq_right less.le).symm
  · exact (max_eq_left (not_lt.mp less)).symm

end Exact

end Gazetteer
