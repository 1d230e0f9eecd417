import Gazetteer.Proofs.Plane.SimpleRings

/-!
# Rings that simplification flattens

A simplified ring is closed, and it is simple if the ring was, with one exception.  Where
thinning leaves three sides there are none that are not neighbours, so nothing is compared, and
the three corners that are left may be on one line.
-/

namespace Gazetteer.Gauge

variable {K : Type} [Field K] [LinearOrder K] [ExactRoot K]

/-- Thinning leaves three sides of a ring, and these are on one line. -/
def Flattens (tolerance : K) (ring : List (Coord K)) : Prop :=
  4 < ring.length ∧ ∃ a b c, (plane K).thin tolerance ring = [a, b, c, a] ∧
    Scalar.turn a b c = .straight

/-- A ring that is flattened does not fall back. -/
theorem Flattens.simplifyRing_eq {tolerance : K} {ring : List (Coord K)}
    (closed : isClosed ring = true) (flattens : Flattens tolerance ring) :
    (plane K).simplifyRing tolerance ring = (plane K).thin tolerance ring := by
  obtain ⟨long, a, b, c, thinned, _⟩ := flattens
  have apart : (plane K).meetsItself [a, b, c, a] = false := rfl
  dsimp only [simplifyRing]
  rw [if_neg (by simp [closed, long]), thinned, apart]
  rfl

/-- Four vertices of which the last repeats the first. -/
theorem exists_triangle {ring : List (Coord K)} (closed : isClosed ring = true)
    (four : ring.length = 4) : ∃ a b c, ring = [a, b, c, a] := by
  obtain ⟨a, b, c, d, rfl⟩ := List.length_eq_four.mp four
  obtain rfl : a = d := by simpa using isClosed_iff.mp closed
  exact ⟨a, b, c, rfl⟩

variable [IsStrictOrderedRing K]

/-- Simplifying a simple ring gives a closed ring, and a simple one exactly if the ring is not
flattened. -/
theorem isSimple_simplifyRing_iff (tolerance : K) {ring : List (Coord K)}
    (simple : IsSimple ring) :
    isClosed ((plane K).simplifyRing tolerance ring) = true ∧
      (IsSimple ((plane K).simplifyRing tolerance ring) ↔ ¬ Flattens tolerance ring) := by
  have closed : isClosed ((plane K).thin tolerance ring) = true :=
    (Simplify.isClosed_thin _ tolerance ring).trans simple.closed
  refine ⟨(isClosed_simplifyRing _ tolerance ring).trans simple.closed, ?_, ?_⟩
  · intro stillSimple flattens
    rw [flattens.simplifyRing_eq simple.closed] at stillSimple
    obtain ⟨_, a, b, c, thinned, straight⟩ := flattens
    rw [thinned] at stillSimple
    exact isSimple_triangle_iff.mp stillSimple straight
  · intro notFlat
    rcases simplifyRing_cases (plane K) tolerance ring with kept | ⟨same, long, four, apart⟩
    · rw [kept]
      exact simple
    · rw [same]
      rcases four.lt_or_eq with five | isFour
      · exact (isSimple_iff_meetsItself closed five).mpr apart
      · obtain ⟨a, b, c, thinned⟩ := exists_triangle closed isFour.symm
        rw [thinned]
        exact isSimple_triangle_iff.mpr fun straight =>
          notFlat ⟨long, a, b, c, thinned, straight⟩

/-! ## A notch and a spike -/

/-- A rectangle with a notch in its upper side. -/
def notchedRectangle : List (Coord ℚ) :=
  [⟨0, 0⟩, ⟨4, 0⟩, ⟨4, 3⟩, ⟨1.5, 2⟩, ⟨0, 3⟩, ⟨0, 0⟩]

theorem isSimple_simplifyRing_notchedRectangle :
    IsSimple notchedRectangle ∧
      (plane ℚ).simplifyRing 1.5 notchedRectangle =
        [⟨0, 0⟩, ⟨4, 0⟩, ⟨4, 3⟩, ⟨0, 3⟩, ⟨0, 0⟩] ∧
      IsSimple ((plane ℚ).simplifyRing 1.5 notchedRectangle) := by
  have simple : IsSimple notchedRectangle :=
    (isSimple_iff_meetsItself (by decide +kernel) (by decide)).mpr (by decide +kernel)
  have thinned : (plane ℚ).thin 1.5 notchedRectangle =
      [⟨0, 0⟩, ⟨4, 0⟩, ⟨4, 3⟩, ⟨0, 3⟩, ⟨0, 0⟩] := by decide +kernel
  refine ⟨simple, by decide +kernel, (isSimple_simplifyRing_iff 1.5 simple).2.mpr ?_⟩
  rintro ⟨_, a, b, c, flat, _⟩
  simp [thinned] at flat

/-- A flat triangle on one side of the first corner, with a spike on the other. -/
def spikedTriangle : List (Coord ℚ) :=
  [⟨0, 0⟩, ⟨10, 0⟩, ⟨0, 0.1⟩, ⟨-5, 0⟩, ⟨0, 0⟩]

/-- Without the corner next to the first one, what is left of it runs forth and back on one
line. -/
theorem not_isSimple_simplifyRing_spikedTriangle :
    IsSimple spikedTriangle ∧
      (plane ℚ).simplifyRing 1 spikedTriangle = [⟨0, 0⟩, ⟨10, 0⟩, ⟨-5, 0⟩, ⟨0, 0⟩] ∧
      ¬ IsSimple ((plane ℚ).simplifyRing 1 spikedTriangle) ∧
      Balance.doubleArea spikedTriangle ⟨0, 0⟩ = 1.5 ∧
      Balance.doubleArea ((plane ℚ).simplifyRing 1 spikedTriangle) ⟨0, 0⟩ = 0 := by
  have simple : IsSimple spikedTriangle :=
    (isSimple_iff_meetsItself (by decide +kernel) (by decide)).mpr (by decide +kernel)
  have flat : (plane ℚ).simplifyRing 1 spikedTriangle =
      [⟨0, 0⟩, ⟨10, 0⟩, ⟨-5, 0⟩, ⟨0, 0⟩] := by decide +kernel
  rw [flat]
  refine ⟨simple, rfl, ?_, by decide +kernel, by decide +kernel⟩
  rw [isSimple_triangle_iff]
  decide +kernel

end Gazetteer.Gauge
