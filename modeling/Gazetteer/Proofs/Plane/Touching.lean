import Gazetteer.Proofs.Plane.Nesting

/-!
# Rings that touch

A ring lies inside another and touches it in some vertices if every side of it has no point in
common with the other ring but its ends.  What is between the ends of such a side is then all
inside or all outside, so one point of every side tells.
-/

namespace Gazetteer

open Exact

variable {K : Type} [Field K] [LinearOrder K]

namespace Segment

/-- Two segments have no point in common but the ends of the second. -/
def MeetsInEnds (first second : Segment (Coord K)) : Prop :=
  ∀ p, first.Holds p → second.Holds p → p = second.start ∨ p = second.stop

/-- A segment with one end on the line of another has no more than that end on it. -/
def EndsOnLine (first second : Segment (Coord K)) : Prop :=
  determinant first.start first.stop second.start ≠
      determinant first.start first.stop second.stop ∧
    (determinant first.start first.stop second.start = 0 ∨
      determinant first.start first.stop second.stop = 0)

instance (first second : Segment (Coord K)) : Decidable (EndsOnLine first second) :=
  inferInstanceAs (Decidable (_ ∧ _))

variable [IsStrictOrderedRing K] {first second side : Segment (Coord K)} {p q y : Coord K}

theorem EndsOnLine.meetsInEnds (ends : EndsOnLine first second) : MeetsInEnds first second := by
  rintro p onFirst ⟨fraction, -, -, rfl⟩
  obtain ⟨differ, onLine⟩ := ends
  have straight := determinant_of_holds onFirst
  rw [determinant_point] at straight
  rcases onLine with start | stop
  · left
    rw [start] at straight differ
    have none : fraction = 0 := by
      simpa [differ.symm] using straight
    rw [none, point_zero]
  · right
    rw [stop] at straight differ
    have all : 1 - fraction = 0 := by
      simpa [differ] using straight
    rw [← sub_eq_zero.mp all, point_one]

/-- Between points of a side that are not its start, there is no start. -/
theorem ne_start_of_between (onSide : side.Holds p) (onSideToo : side.Holds q)
    (away : p ≠ side.start) (awayToo : q ≠ side.start) (between : Holds ⟨p, q⟩ y) :
    y ≠ side.start := by
  obtain ⟨t, tLow, -, rfl⟩ := onSide
  obtain ⟨u, uLow, -, rfl⟩ := onSideToo
  obtain ⟨v, vLow, vHigh, rfl⟩ := between
  have tPos : 0 < t := tLow.lt_of_ne fun zero => away (by rw [← zero, point_zero])
  have uPos : 0 < u := uLow.lt_of_ne fun zero => awayToo (by rw [← zero, point_zero])
  have differ : side.start ≠ side.stop := by
    obtain ⟨a, b⟩ := side
    rintro same
    obtain rfl : a = b := same
    exact away (point_of_same a t)
  rw [point_point, ← side.point_zero]
  intro same
  have zero := point_injective differ same
  have positive := le_mean vLow vHigh (min_le_left t u) (min_le_right t u)
  rw [zero] at positive
  exact absurd positive (not_le.mpr (lt_min tPos uPos))

theorem ne_stop_of_between (onSide : side.Holds p) (onSideToo : side.Holds q)
    (away : p ≠ side.stop) (awayToo : q ≠ side.stop) (between : Holds ⟨p, q⟩ y) :
    y ≠ side.stop := by
  obtain ⟨a, b⟩ := side
  exact ne_start_of_between (Holds.reverse onSide) (Holds.reverse onSideToo) away awayToo between

/-- The middle of a side is no end of it. -/
theorem point_half_ne (proper : side.start ≠ side.stop) :
    side.point 2⁻¹ ≠ side.start ∧ side.point 2⁻¹ ≠ side.stop := by
  constructor
  · rw [Ne, ← side.point_zero]
    exact fun same => absurd (point_injective proper same) (by norm_num)
  · rw [Ne, ← side.point_one]
    exact fun same => absurd (point_injective proper same) (by norm_num)

theorem holds_point_half (side : Segment (Coord K)) : side.Holds (side.point 2⁻¹) :=
  ⟨2⁻¹, by norm_num, by norm_num, rfl⟩

end Segment

variable [IsStrictOrderedRing K] [ExactRoot K] {ring outline : List (Coord K)}
  {side : Segment (Coord K)} {p q : Coord K}

/-- A loop winds alike around all points of a side that it meets in its ends only, but for these
ends. -/
theorem IsLoop.ringPosition_eq_of_meetsInEnds (loop : IsLoop outline)
    (ends : ∀ other ∈ segments outline, other.MeetsInEnds side)
    (onSide : side.Holds p) (notEnd : p ≠ side.start ∧ p ≠ side.stop)
    (onSideToo : side.Holds q) (notEndToo : q ≠ side.start ∧ q ≠ side.stop) :
    ringPosition outline p = ringPosition outline q := by
  refine loop.ringPosition_eq_of_apart fun other isOther y onOther between => ?_
  rcases ends other isOther y onOther (onSide.between onSideToo between) with start | stop
  · exact Segment.ne_start_of_between onSide onSideToo notEnd.1 notEndToo.1 between start
  · exact Segment.ne_stop_of_between onSide onSideToo notEnd.2 notEndToo.2 between stop

/-- A ring is inside another and touches it in vertices at most if no vertex is outside, the
middle of every side is inside and no side meets the other ring but with an end. -/
theorem inside_or_touches (loop : IsLoop outline)
    (proper : ∀ side ∈ segments ring, side.start ≠ side.stop)
    (ends : ∀ side ∈ segments ring, ∀ other ∈ segments outline,
      other.meets side = false ∨ other.EndsOnLine side)
    (middles : ∀ side ∈ segments ring, ringPosition outline (side.point 2⁻¹) = .inside)
    (corners : ∀ vertex ∈ ring, ringPosition outline vertex ≠ .outside) (on : OnRing ring p) :
    ringPosition outline p = .inside ∨ p ∈ ring ∧ ringPosition outline p = .boundary := by
  have corner (vertex : Coord K) (member : vertex ∈ ring) :
      ringPosition outline vertex = .inside ∨
        vertex ∈ ring ∧ ringPosition outline vertex = .boundary := by
    have notOutside := corners vertex member
    cases place : ringPosition outline vertex with
    | inside => exact Or.inl rfl
    | boundary => exact Or.inr ⟨member, rfl⟩
    | outside => exact absurd place notOutside
  obtain ⟨side, isSide, onSide⟩ := on
  obtain ⟨isStart, isStop⟩ := mem_of_mem_segments isSide
  rcases eq_or_ne p side.start with rfl | notStart
  · exact corner _ isStart
  rcases eq_or_ne p side.stop with rfl | notStop
  · exact corner _ isStop
  -- between its ends the side does not meet the edge, so its middle tells for the point
  left
  have meetsInEnds other (isOther : other ∈ segments outline) : other.MeetsInEnds side := by
    rcases ends side isSide other isOther with apart | onLine
    · exact fun y onOther on => absurd on (Segment.meets_eq_false_iff.mp apart y onOther)
    · exact onLine.meetsInEnds
  rw [loop.ringPosition_eq_of_meetsInEnds meetsInEnds onSide ⟨notStart, notStop⟩
    side.holds_point_half (Segment.point_half_ne (proper side isSide)), middles side isSide]

end Gazetteer
