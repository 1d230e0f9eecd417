import Gazetteer.Proofs.Plane.Covering
import Mathlib.Tactic.FieldSimp
import Mathlib.Tactic.LinearCombination

/-!
# Points of segments

What the tests for segments decide, where nothing is rounded.  A point is on a segment if it is
at some fraction of the way from one end to the other, and two segments meet if they have such
a point in common.  Both are told from the signs of determinants: unless all four ends are on
one line, segments meet exactly if neither has its ends strictly on one side of the other.
-/

namespace Gazetteer

theorem Coord.ext_iff {K : Type} {p q : Coord K} : p = q ↔ p.x = q.x ∧ p.y = q.y := by
  cases p
  cases q
  simp

/-- A mean of two numbers is not beyond both. -/
theorem Exact.mean_le {K : Type} [Field K] [LinearOrder K] [IsStrictOrderedRing K]
    {t u v bound : K} (low : 0 ≤ v) (high : v ≤ 1) (first : t ≤ bound) (second : u ≤ bound) :
    (1 - v) * t + v * u ≤ bound := by
  have left := mul_le_mul_of_nonneg_left first (sub_nonneg.mpr high)
  have right := mul_le_mul_of_nonneg_left second low
  linarith

theorem Exact.le_mean {K : Type} [Field K] [LinearOrder K] [IsStrictOrderedRing K]
    {t u v bound : K} (low : 0 ≤ v) (high : v ≤ 1) (first : bound ≤ t) (second : bound ≤ u) :
    bound ≤ (1 - v) * t + v * u := by
  have left := mul_le_mul_of_nonneg_left first (sub_nonneg.mpr high)
  have right := mul_le_mul_of_nonneg_left second low
  linarith

namespace Segment

variable {K : Type} [Field K]

/-- The point of the line through a segment at a fraction of the way. -/
def point (segment : Segment (Coord K)) (fraction : K) : Coord K :=
  ⟨segment.start.x + fraction * (segment.stop.x - segment.start.x),
    segment.start.y + fraction * (segment.stop.y - segment.start.y)⟩

@[simp] theorem point_zero (segment : Segment (Coord K)) : segment.point 0 = segment.start := by
  simp [point]

@[simp] theorem point_one (segment : Segment (Coord K)) : segment.point 1 = segment.stop := by
  simp [point]

@[simp] theorem point_of_same (a : Coord K) (fraction : K) : point ⟨a, a⟩ fraction = a := by
  simp [point]

theorem point_reverse (a b : Coord K) (fraction : K) :
    point ⟨b, a⟩ (1 - fraction) = point ⟨a, b⟩ fraction := by
  rw [Coord.ext_iff]
  constructor <;> simp only [point] <;> ring

theorem point_point (segment : Segment (Coord K)) (t u v : K) :
    point ⟨segment.point t, segment.point u⟩ v = segment.point ((1 - v) * t + v * u) := by
  rw [Coord.ext_iff]
  constructor <;> simp only [point] <;> ring

/-- The end of a segment as a point of another that leaves the same vertex. -/
theorem point_div_eq {a b c : Coord K} {t u : K} (away : t ≠ 0)
    (same : point ⟨b, c⟩ u = point ⟨b, a⟩ t) : point ⟨b, c⟩ (u / t) = a := by
  obtain ⟨sameX, sameY⟩ := Coord.ext_iff.mp same
  simp only [point] at sameX sameY
  rw [Coord.ext_iff]
  constructor
  · simp only [point]
    field_simp
    linear_combination sameX
  · simp only [point]
    field_simp
    linear_combination sameY

/-- Different fractions of the way are different points. -/
theorem point_injective {a b : Coord K} (differ : a ≠ b) {t u : K}
    (same : point ⟨a, b⟩ t = point ⟨a, b⟩ u) : t = u := by
  obtain ⟨sameX, sameY⟩ := Coord.ext_iff.mp same
  simp only [point, add_right_inj] at sameX sameY
  by_contra apart
  have levelX : b.x - a.x = 0 := by
    by_contra gap
    exact apart (mul_right_cancel₀ gap sameX)
  have levelY : b.y - a.y = 0 := by
    by_contra gap
    exact apart (mul_right_cancel₀ gap sameY)
  exact differ (Coord.ext_iff.mpr ⟨(sub_eq_zero.mp levelX).symm, (sub_eq_zero.mp levelY).symm⟩)

variable [LinearOrder K]

/-- A point is on a segment, ends included. -/
def Holds (segment : Segment (Coord K)) (p : Coord K) : Prop :=
  ∃ fraction, 0 ≤ fraction ∧ fraction ≤ 1 ∧ segment.point fraction = p

/-- Two segments have no point in common. -/
def Apart (first second : Segment (Coord K)) : Prop :=
  ∀ p, first.Holds p → ¬ second.Holds p

theorem Apart.symm {first second : Segment (Coord K)} (apart : first.Apart second) :
    second.Apart first :=
  fun p onSecond onFirst => apart p onFirst onSecond

variable [IsStrictOrderedRing K] {segment : Segment (Coord K)} {a b c d p q : Coord K}

theorem holds_start (segment : Segment (Coord K)) : segment.Holds segment.start :=
  ⟨0, le_rfl, zero_le_one, segment.point_zero⟩

theorem holds_stop (segment : Segment (Coord K)) : segment.Holds segment.stop :=
  ⟨1, zero_le_one, le_rfl, segment.point_one⟩

theorem holds_of_same_iff : Holds ⟨a, a⟩ p ↔ p = a := by
  constructor
  · rintro ⟨fraction, _, _, rfl⟩
    exact point_of_same a fraction
  · rintro rfl
    exact holds_start ⟨p, p⟩

theorem Holds.reverse (holds : Holds ⟨a, b⟩ p) : Holds ⟨b, a⟩ p := by
  obtain ⟨fraction, low, high, rfl⟩ := holds
  exact ⟨1 - fraction, sub_nonneg.mpr high, sub_le_self 1 low, point_reverse a b fraction⟩

/-- A segment between two points of a segment is part of it. -/
theorem Holds.between (holdsFirst : segment.Holds a) (holdsSecond : segment.Holds b)
    (between : Holds ⟨a, b⟩ p) : segment.Holds p := by
  obtain ⟨t, tLow, tHigh, rfl⟩ := holdsFirst
  obtain ⟨u, uLow, uHigh, rfl⟩ := holdsSecond
  obtain ⟨v, vLow, vHigh, rfl⟩ := between
  exact ⟨(1 - v) * t + v * u, Exact.le_mean vLow vHigh tLow uLow,
    Exact.mean_le vLow vHigh tHigh uHigh, (point_point segment t u v).symm⟩

/-- Where two segments that leave a vertex meet again, one of them is part of the other. -/
theorem Holds.overlap (holdsFirst : Holds ⟨a, b⟩ p) (holdsSecond : Holds ⟨b, c⟩ p)
    (away : p ≠ b) : Holds ⟨a, b⟩ c ∨ Holds ⟨b, c⟩ a := by
  obtain ⟨t, tLow, tHigh, rfl⟩ := holdsFirst.reverse
  obtain ⟨u, uLow, uHigh, same⟩ := holdsSecond
  have tPos : 0 < t := tLow.lt_of_ne fun zero => away (by simp [← zero])
  have uPos : 0 < u := uLow.lt_of_ne fun zero => away (by simp [← same, ← zero])
  rcases le_total t u with shorter | longer
  · exact Or.inl <| Holds.reverse
      ⟨t / u, by positivity, (div_le_one uPos).mpr shorter, point_div_eq uPos.ne' same.symm⟩
  · exact Or.inr
      ⟨u / t, by positivity, (div_le_one tPos).mpr longer, point_div_eq tPos.ne' same⟩

omit [IsStrictOrderedRing K] in
theorem holds_point_iff (differ : a ≠ b) {fraction : K} :
    Holds ⟨a, b⟩ (point ⟨a, b⟩ fraction) ↔ 0 ≤ fraction ∧ fraction ≤ 1 := by
  constructor
  · rintro ⟨other, low, high, same⟩
    obtain rfl := point_injective differ same
    exact ⟨low, high⟩
  · rintro ⟨low, high⟩
    exact ⟨fraction, low, high, rfl⟩

/-- A segment that reaches into another on its line, and has no end there, holds it. -/
theorem Holds.stop_of_outside (differ : a ≠ b) {t u : K}
    (common : Holds ⟨point ⟨a, b⟩ t, point ⟨a, b⟩ u⟩ p) (holds : Holds ⟨a, b⟩ p)
    (outside : ¬ (0 ≤ t ∧ t ≤ 1)) (outsideToo : ¬ (0 ≤ u ∧ u ≤ 1)) :
    Holds ⟨point ⟨a, b⟩ t, point ⟨a, b⟩ u⟩ b := by
  obtain ⟨v, vLow, vHigh, rfl⟩ := common
  rw [point_point, holds_point_iff differ] at holds
  obtain ⟨low, high⟩ := holds
  have reached (w : K) (wLow : 0 ≤ w) (wHigh : w ≤ 1) (one : (1 - w) * t + w * u = 1) :
      Holds ⟨point ⟨a, b⟩ t, point ⟨a, b⟩ u⟩ b :=
    ⟨w, wLow, wHigh, by rw [point_point, one, point_one]⟩
  rw [not_and_or, not_le, not_le] at outside outsideToo
  rcases outside with before | behind <;> rcases outsideToo with beforeToo | behindToo
  · have below := Exact.mean_le vLow vHigh (le_max_left t u) (le_max_right t u)
    exact absurd low (not_le.mpr (below.trans_lt (max_lt before beforeToo)))
  · have gap : 0 < u - t := by linarith
    refine reached ((1 - t) / (u - t)) (div_nonneg (by linarith) gap.le)
      ((div_le_one gap).mpr (by linarith)) ?_
    field_simp
    ring
  · have gap : 0 < t - u := by linarith
    refine reached ((t - 1) / (t - u)) (div_nonneg (by linarith) gap.le)
      ((div_le_one gap).mpr (by linarith)) ?_
    field_simp
    ring
  · have above := Exact.le_mean vLow vHigh (min_le_left t u) (min_le_right t u)
    exact absurd high (not_le.mpr ((lt_min behind behindToo).trans_le above))

end Segment

/-! ## Determinants -/

namespace Exact

open Segment

variable {K : Type} [Field K] [LinearOrder K] {a b c d p : Coord K}

section

omit [LinearOrder K]

/-- A determinant changes evenly along a segment. -/
theorem determinant_point (a b c d : Coord K) (fraction : K) :
    determinant a b (point ⟨c, d⟩ fraction) =
      (1 - fraction) * determinant a b c + fraction * determinant a b d := by
  simp only [determinant, point]
  ring

theorem determinant_sub (a b c d : Coord K) :
    determinant a b c - determinant a b d = determinant c d b - determinant c d a := by
  simp only [determinant]
  ring

theorem determinant_rotate (a b c : Coord K) : determinant b c a = determinant a b c := by
  simp only [determinant]
  ring

/-- What is on the line through two different points is at some fraction of the way. -/
theorem exists_point_of_determinant (differ : a ≠ b) (straight : determinant a b c = 0) :
    ∃ fraction, point ⟨a, b⟩ fraction = c := by
  simp only [determinant] at straight
  by_cases sameX : a.x = b.x
  · have apartY : b.y - a.y ≠ 0 := by
      intro sameY
      exact differ (Coord.ext_iff.mpr ⟨sameX, (sub_eq_zero.mp sameY).symm⟩)
    refine ⟨(c.y - a.y) / (b.y - a.y), Coord.ext_iff.mpr ⟨?_, ?_⟩⟩
    · have level : (a.x - c.x) * (b.y - a.y) = 0 := by
        rw [← sameX] at straight
        linear_combination straight
      have onLine := (mul_eq_zero.mp level).resolve_right apartY
      simp only [point, sameX, sub_self, mul_zero, add_zero]
      rw [← sameX]
      exact sub_eq_zero.mp onLine
    · simp only [point]
      field_simp
      ring
  · have apartX : b.x - a.x ≠ 0 := sub_ne_zero.mpr (Ne.symm sameX)
    refine ⟨(c.x - a.x) / (b.x - a.x), Coord.ext_iff.mpr ⟨?_, ?_⟩⟩
    · simp only [point]
      field_simp
      ring
    · simp only [point]
      field_simp
      linear_combination -straight

end

variable [IsStrictOrderedRing K]

/-- Where a number that changes evenly from one sign to the other passes zero. -/
theorem fraction_mem {m n : K} (opposite : m * n ≤ 0) (differ : m ≠ n) :
    0 ≤ m / (m - n) ∧ m / (m - n) ≤ 1 := by
  rcases lt_or_gt_of_ne differ with less | more
  · have low : m ≤ 0 := by
      by_contra positive
      exact absurd opposite (not_le.mpr (mul_pos (not_le.mp positive)
        ((not_le.mp positive).trans less)))
    have high : 0 ≤ n := by
      by_contra negative
      exact absurd opposite (not_le.mpr (mul_pos_of_neg_of_neg (less.trans (not_le.mp negative))
        (not_le.mp negative)))
    have gap : m - n < 0 := sub_neg.mpr less
    exact ⟨div_nonneg_of_nonpos low gap.le, (div_le_one_of_neg gap).mpr (by linarith)⟩
  · have high : 0 ≤ m := by
      by_contra negative
      exact absurd opposite (not_le.mpr (mul_pos_of_neg_of_neg (not_le.mp negative)
        (more.trans (not_le.mp negative))))
    have low : n ≤ 0 := by
      by_contra positive
      exact absurd opposite (not_le.mpr (mul_pos ((not_le.mp positive).trans more)
        (not_le.mp positive)))
    have gap : 0 < m - n := sub_pos.mpr more
    exact ⟨div_nonneg high gap.le, (div_le_one gap).mpr (by linarith)⟩

/-- Segments meet if neither has its ends strictly on one side of the other, unless all four
ends are on one line. -/
theorem exists_common (first : determinant a b c * determinant a b d ≤ 0)
    (second : determinant c d a * determinant c d b ≤ 0)
    (differ : determinant a b c ≠ determinant a b d) :
    ∃ p, Holds ⟨a, b⟩ p ∧ Holds ⟨c, d⟩ p := by
  have difference := determinant_sub a b c d
  have differToo : determinant c d a ≠ determinant c d b := by
    intro same
    rw [same, sub_self] at difference
    exact differ (sub_eq_zero.mp difference)
  have gap : determinant a b c - determinant a b d ≠ 0 := sub_ne_zero.mpr differ
  have gapToo : determinant c d a - determinant c d b ≠ 0 := sub_ne_zero.mpr differToo
  obtain ⟨sLow, sHigh⟩ := fraction_mem first differ
  obtain ⟨tLow, tHigh⟩ := fraction_mem second differToo
  refine ⟨_, ⟨_, tLow, tHigh, rfl⟩, _, sLow, sHigh, ?_⟩
  have turned : determinant c d a - determinant c d b =
      -(determinant a b c - determinant a b d) := by
    rw [difference, neg_sub]
  rw [turned, div_neg, Coord.ext_iff]
  constructor
  · simp only [point]
    field_simp
    simp only [determinant]
    ring
  · simp only [point]
    field_simp
    simp only [determinant]
    ring

/-- The ends of a segment that meets a line are not strictly on one side of it. -/
theorem determinant_mul_nonpos (onLine : determinant a b p = 0) (holds : Holds ⟨c, d⟩ p) :
    determinant a b c * determinant a b d ≤ 0 := by
  obtain ⟨fraction, low, high, rfl⟩ := holds
  rw [determinant_point] at onLine
  by_contra sameSide
  have positive := not_le.mp sameSide
  rcases pos_and_pos_or_neg_and_neg_of_mul_pos positive with ⟨left, left'⟩ | ⟨right, right'⟩
  · rcases high.lt_or_eq with less | rfl
    · have := mul_pos (sub_pos.mpr less) left
      have := mul_nonneg low left'.le
      linarith
    · linarith
  · rcases high.lt_or_eq with less | rfl
    · have := mul_neg_of_pos_of_neg (sub_pos.mpr less) right
      have := mul_nonpos_of_nonneg_of_nonpos low right'.le
      linarith
    · linarith

omit [IsStrictOrderedRing K] in
theorem determinant_of_holds (holds : Holds ⟨a, b⟩ p) : determinant a b p = 0 := by
  obtain ⟨fraction, _, _, rfl⟩ := holds
  simp only [determinant, point]
  ring

/-- Of three points on a line, one is between the others. -/
theorem exists_between {a b c : Coord K} (straight : determinant a b c = 0) :
    Holds ⟨a, b⟩ c ∨ Holds ⟨b, c⟩ a ∨ Holds ⟨c, a⟩ b := by
  by_cases differ : a = b
  · subst differ
    exact Or.inr (Or.inl (holds_start ⟨a, c⟩))
  · obtain ⟨fraction, isThird⟩ := exists_point_of_determinant differ straight
    rcases lt_or_ge fraction 0 with before | low
    · right
      left
      have away : 1 < 1 - fraction := by linarith
      have same : point ⟨b, c⟩ 1 = point ⟨b, a⟩ (1 - fraction) := by
        rw [point_reverse, isThird, point_one]
      exact ⟨1 / (1 - fraction), by positivity, (div_le_one (by linarith)).mpr away.le,
        point_div_eq (by linarith) same⟩
    · rcases le_or_gt fraction 1 with high | behind
      · exact Or.inl ⟨fraction, low, high, isThird⟩
      · right
        right
        have same : point ⟨a, c⟩ 1 = point ⟨a, b⟩ fraction := by
          rw [isThird, point_one]
        exact Holds.reverse ⟨1 / fraction, by positivity,
          (div_le_one (by linarith)).mpr behind.le, point_div_eq (by linarith) same⟩

end Exact

/-! ## The tests -/

instance {K : Type} [Field K] [LinearOrder K] [ExactRoot K] : LawfulBEq (Coord K) where
  eq_of_beq := Exact.eq_of_beq
  rfl {p} := Bool.and_eq_true_iff.mpr ⟨BEq.refl p.x, BEq.refl p.y⟩

theorem isClosed_iff {K : Type} [Field K] [LinearOrder K] [ExactRoot K] {ring : List (Coord K)} :
    isClosed ring = true ↔ ring.head? = ring.getLast? := by
  rw [isClosed, beq_iff_eq]

namespace Scalar

variable {K : Type} [Field K] [LinearOrder K] [ExactRoot K]

theorem between_iff {value bound other : K} :
    between value bound other = true ↔
      bound ≤ value ∧ value ≤ other ∨ other ≤ value ∧ value ≤ bound := by
  unfold between
  split_ifs with less
  · simp only [Bool.and_eq_true, decide_eq_true_eq]
    constructor
    · exact Or.inl
    · rintro (inside | ⟨reaches, more⟩)
      · exact inside
      · exact absurd less (not_lt.mpr (reaches.trans more))
  · simp only [Bool.and_eq_true, decide_eq_true_eq]
    constructor
    · exact Or.inr
    · rintro (⟨reaches, more⟩ | inside)
      · have same : bound = other := le_antisymm (reaches.trans more) (not_lt.mp less)
        exact ⟨same ▸ reaches, same ▸ more⟩
      · exact inside

theorem between_fraction_iff [IsStrictOrderedRing K] {bound other : K} (differ : bound ≠ other)
    (fraction : K) :
    between (bound + fraction * (other - bound)) bound other = true ↔
      0 ≤ fraction ∧ fraction ≤ 1 := by
  rw [between_iff]
  rcases lt_or_gt_of_ne differ with less | more
  · have gap : 0 < other - bound := sub_pos.mpr less
    constructor
    · rintro (⟨low, high⟩ | ⟨low, high⟩)
      · constructor <;> by_contra outside <;> nlinarith
      · constructor <;> by_contra outside <;> nlinarith
    · rintro ⟨low, high⟩
      left
      constructor <;> nlinarith
  · have gap : 0 < bound - other := sub_pos.mpr more
    constructor
    · rintro (⟨low, high⟩ | ⟨low, high⟩)
      · constructor <;> by_contra outside <;> nlinarith
      · constructor <;> by_contra outside <;> nlinarith
    · rintro ⟨low, high⟩
      right
      constructor <;> nlinarith

end Scalar

namespace Segment

open Exact

variable {K : Type} [Field K] [LinearOrder K] [ExactRoot K] [IsStrictOrderedRing K]
  {a b c d p : Coord K}

theorem inCorners_point_iff (differ : a ≠ b) (fraction : K) :
    (point ⟨a, b⟩ fraction).inCorners a b = true ↔ 0 ≤ fraction ∧ fraction ≤ 1 := by
  have unmoved (value : K) : Scalar.between (value + fraction * (value - value)) value value =
      true := by
    rw [Scalar.between_iff]
    simp
  simp only [Coord.inCorners, point, Bool.and_eq_true]
  by_cases sameX : a.x = b.x
  · have differY : a.y ≠ b.y := fun sameY => differ (Coord.ext_iff.mpr ⟨sameX, sameY⟩)
    rw [sameX, and_iff_right (unmoved b.x), Scalar.between_fraction_iff differY]
  · by_cases sameY : a.y = b.y
    · rw [sameY, and_iff_left (unmoved b.y), Scalar.between_fraction_iff sameX]
    · rw [Scalar.between_fraction_iff sameX, Scalar.between_fraction_iff sameY, and_self_iff]

/-- On a line, the rectangle that two corners span holds what the segment between them holds. -/
theorem inCorners_iff (straight : determinant a b p = 0) :
    p.inCorners a b = true ↔ Holds ⟨a, b⟩ p := by
  by_cases differ : a = b
  · subst differ
    rw [holds_of_same_iff]
    simp only [Coord.inCorners, Bool.and_eq_true, Scalar.between_iff, or_self, Coord.ext_iff]
    exact and_congr ⟨fun level => le_antisymm level.2 level.1, fun same => ⟨same.ge, same.le⟩⟩
      ⟨fun level => le_antisymm level.2 level.1, fun same => ⟨same.ge, same.le⟩⟩
  · obtain ⟨fraction, rfl⟩ := exists_point_of_determinant differ straight
    rw [inCorners_point_iff differ]
    constructor
    · rintro ⟨low, high⟩
      exact ⟨fraction, low, high, rfl⟩
    · rintro ⟨other, low, high, same⟩
      rw [← inCorners_point_iff differ, ← same, inCorners_point_iff differ]
      exact ⟨low, high⟩

omit [IsStrictOrderedRing K] in
theorem turn_eq_straight_iff : Scalar.turn a b c = .straight ↔ determinant a b c = 0 := by
  simp only [Scalar.turn]
  split_ifs with left right
  · simp [left.ne']
  · simp [right.ne]
  · simp [le_antisymm (not_lt.mp left) (not_lt.mp right)]

/-- The test for a point on a segment. -/
theorem holds_iff {segment : Segment (Coord K)} :
    segment.holds p = true ↔ segment.Holds p := by
  rw [holds, Bool.and_eq_true, beq_iff_eq, turn_eq_straight_iff]
  constructor
  · rintro ⟨straight, inside⟩
    exact (inCorners_iff straight).mp inside
  · intro onSegment
    have straight := determinant_of_holds onSegment
    exact ⟨straight, (inCorners_iff straight).mpr onSegment⟩

/-- Two turns differ if neither of their determinants is on the strict side of the other. -/
theorem turn_ne_turn_iff {a' b' c' : Coord K} (differ : determinant a b c ≠ determinant a' b' c') :
    Scalar.turn a b c ≠ Scalar.turn a' b' c' ↔
      determinant a b c * determinant a' b' c' ≤ 0 := by
  simp only [Scalar.turn]
  rcases lt_trichotomy (determinant a b c) 0 with neg | zero | pos <;>
    rcases lt_trichotomy (determinant a' b' c') 0 with neg' | zero' | pos'
  · simp [neg, neg.not_gt, neg', neg'.not_gt, mul_pos_of_neg_of_neg neg neg']
  · simp [neg, neg.not_gt, zero']
  · simp [neg, neg.not_gt, pos', (mul_neg_of_neg_of_pos neg pos').le]
  · simp [zero, neg', neg'.not_gt]
  · exact absurd (zero.trans zero'.symm) differ
  · simp [zero, pos']
  · simp [pos, neg', neg'.not_gt, (mul_neg_of_pos_of_neg pos neg').le]
  · simp [pos, zero']
  · simp [pos, pos', mul_pos pos pos']

/-- The test for segments that meet. -/
theorem meets_iff {first second : Segment (Coord K)} :
    first.meets second = true ↔ ∃ p, first.Holds p ∧ second.Holds p := by
  obtain ⟨a, b⟩ := first
  obtain ⟨c, d⟩ := second
  dsimp only [meets]
  split_ifs with same turns straight
  · obtain rfl := beq_iff_eq.mp same
    simp only [holds_iff, holds_of_same_iff, exists_eq_left]
  · -- the ends of the second segment are not on one side of the first
    have differ : determinant a b c ≠ determinant a b d := by
      intro equal
      simp [Scalar.turn, equal] at turns
    have first := (turn_ne_turn_iff differ).mp turns
    have differToo : determinant c d a ≠ determinant c d b := by
      intro equal
      have difference := determinant_sub a b c d
      rw [equal, sub_self] at difference
      exact differ (sub_eq_zero.mp difference)
    rw [bne_iff_ne, turn_ne_turn_iff differToo]
    constructor
    · intro second
      exact exists_common first second differ
    · rintro ⟨p, onFirst, onSecond⟩
      exact determinant_mul_nonpos (determinant_of_holds onSecond) onFirst
  · have different : a ≠ b := fun equal => same (by simp [equal])
    rw [not_not] at turns
    have straightToo : Scalar.turn a b d = .straight := turns ▸ straight
    rw [turn_eq_straight_iff] at straight straightToo
    have straightB : determinant c d b = 0 := by
      obtain ⟨t, rfl⟩ := exists_point_of_determinant different straight
      obtain ⟨u, rfl⟩ := exists_point_of_determinant different straightToo
      simp only [determinant, point]
      ring
    rw [Bool.or_eq_true, Bool.or_eq_true, inCorners_iff straight, inCorners_iff straightToo,
      inCorners_iff straightB]
    constructor
    · rintro ((holdsC | holdsD) | holdsB)
      · exact ⟨c, holdsC, holds_start ⟨c, d⟩⟩
      · exact ⟨d, holdsD, holds_stop ⟨c, d⟩⟩
      · exact ⟨b, holds_stop ⟨a, b⟩, holdsB⟩
    · rintro ⟨p, onFirst, onSecond⟩
      obtain ⟨t, rfl⟩ := exists_point_of_determinant different straight
      obtain ⟨u, rfl⟩ := exists_point_of_determinant different straightToo
      by_contra none
      rw [not_or, not_or, holds_point_iff different, holds_point_iff different] at none
      exact none.2 (onSecond.stop_of_outside different onFirst none.1.1 none.1.2)
  · rw [not_not] at turns
    simp only [false_iff, not_exists, not_and]
    intro p onFirst onSecond
    have between := determinant_mul_nonpos (determinant_of_holds onFirst) onSecond
    by_cases equal : determinant a b c = determinant a b d
    · rw [← equal] at between
      have level := mul_self_eq_zero.mp (le_antisymm between (mul_self_nonneg _))
      exact straight (turn_eq_straight_iff.mpr level)
    · exact (turn_ne_turn_iff equal).mpr between turns

theorem meets_eq_false_iff {first second : Segment (Coord K)} :
    first.meets second = false ↔ first.Apart second := by
  rw [← Bool.not_eq_true, meets_iff]
  simp only [not_exists, not_and, Apart]

end Segment

end Gazetteer
