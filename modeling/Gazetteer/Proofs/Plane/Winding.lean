import Gazetteer.Proofs.Plane.Segments
import Mathlib.Algebra.BigOperators.Group.List.Basic

/-!
# Where a ring winds

How often a closed ring winds around a point does not change while the point moves along a
segment that the ring does not meet.  The ray to the right of the point sweeps over the vertices
to the right of the segment, between the heights of its ends.  A side of the ring that begins or
stops among these passes one of the two rays, at the ends of the segment, in exactly the way that
makes up for it; any other side passes both or neither.  Round the whole ring the vertices cancel.
-/

namespace Gazetteer

variable {K : Type} [Field K] [LinearOrder K]

open Exact

/-! ## One side -/

namespace Segment

/-- How a segment passes the ray to the right of a point: once upwards, once downwards or not at
all. -/
def passing (p : Coord K) (segment : Segment (Coord K)) : Int :=
  if segment.start.y ≤ p.y ∧ p.y < segment.stop.y ∧
      0 < determinant segment.start segment.stop p then 1
  else if segment.stop.y ≤ p.y ∧ p.y < segment.start.y ∧
      determinant segment.start segment.stop p < 0 then -1
  else 0

theorem passing_of_upwards {p a b : Coord K} (upwards : a.y ≤ b.y) :
    passing p ⟨a, b⟩ =
      if a.y ≤ p.y ∧ p.y < b.y ∧ 0 < determinant a b p then 1 else 0 := by
  have notDown : ¬ (b.y ≤ p.y ∧ p.y < a.y ∧ determinant a b p < 0) :=
    fun down => absurd (down.2.1.trans_le upwards) (not_lt.mpr down.1)
  simp only [passing, if_neg notDown]

theorem passing_reverse [IsStrictOrderedRing K] (p a b : Coord K) :
    passing p ⟨b, a⟩ = -passing p ⟨a, b⟩ := by
  have turned : determinant b a p = -determinant a b p := by
    simp only [determinant]
    ring
  have exclusive : ¬ ((a.y ≤ p.y ∧ p.y < b.y ∧ 0 < determinant a b p) ∧
      b.y ≤ p.y ∧ p.y < a.y ∧ determinant a b p < 0) :=
    fun both => absurd both.1.2.1 (not_lt.mpr both.2.1)
  simp only [passing, turned, Left.neg_pos_iff, Left.neg_neg_iff]
  split_ifs with down up up <;> first | rfl | exact absurd ⟨up, down⟩ exclusive

end Segment

section Sweep

variable {a b p q : Coord K}

omit [LinearOrder K] in
/-- Determinants of four points are in balance with their heights. -/
theorem determinant_balance (a b p q : Coord K) (height : K) :
    determinant p q b * (a.y - height) - determinant p q a * (b.y - height) +
      determinant a b q * (p.y - height) - determinant a b p * (q.y - height) = 0 := by
  simp only [determinant]
  ring

variable [IsStrictOrderedRing K]

theorem determinant_eq_of_apart (apart : Segment.Apart ⟨a, b⟩ ⟨p, q⟩)
    (first : determinant a b p * determinant a b q ≤ 0)
    (second : determinant p q a * determinant p q b ≤ 0) :
    determinant a b p = determinant a b q := by
  by_contra differ
  obtain ⟨common, onFirst, onSecond⟩ := exists_common first second differ
  exact apart common onFirst onSecond

/-- A side from below the lower height to between the heights passes the lower ray just if it
stops to the right of the segment. -/
theorem left_iff_right_of_low_mid (apart : Segment.Apart ⟨a, b⟩ ⟨p, q⟩) (low : a.y ≤ p.y)
    (above : p.y < b.y) (mid : b.y ≤ q.y) : 0 < determinant a b p ↔ determinant p q b < 0 := by
  have atLower := determinant_balance a b p q p.y
  have atStop := determinant_balance a b p q b.y
  constructor
  · intro left
    by_contra notRight
    have startRight : determinant p q a ≤ 0 := by nlinarith
    have upperRight : determinant a b q ≤ 0 := by nlinarith
    have same := determinant_eq_of_apart apart (by nlinarith) (by nlinarith)
    linarith
  · intro right
    by_contra notLeft
    have startLeft : 0 ≤ determinant p q a := by nlinarith
    have upperLeft : 0 < determinant a b q := by nlinarith
    have same := determinant_eq_of_apart apart (by nlinarith) (by nlinarith)
    linarith

/-- A side from below both heights to above them passes both rays or neither. -/
theorem left_iff_left_of_low_high (apart : Segment.Apart ⟨a, b⟩ ⟨p, q⟩) (low : a.y ≤ p.y)
    (between : p.y ≤ q.y) (high : q.y < b.y) :
    0 < determinant a b p ↔ 0 < determinant a b q := by
  have atStart := determinant_balance a b p q a.y
  have atStop := determinant_balance a b p q b.y
  constructor
  · intro left
    by_contra notLeft
    have startRight : determinant p q a ≤ 0 := by nlinarith
    have stopLeft : 0 ≤ determinant p q b := by nlinarith
    have same := determinant_eq_of_apart apart (by nlinarith) (by nlinarith)
    linarith
  · intro left
    by_contra notLeft
    have startLeft : 0 ≤ determinant p q a := by nlinarith
    have stopRight : determinant p q b ≤ 0 := by nlinarith
    have same := determinant_eq_of_apart apart (by nlinarith) (by nlinarith)
    linarith

/-- A side between the heights stays on one side of the segment. -/
theorem right_iff_right_of_mid_mid (apart : Segment.Apart ⟨a, b⟩ ⟨p, q⟩) (above : p.y < a.y)
    (upwards : a.y ≤ b.y) (mid : b.y ≤ q.y) :
    determinant p q a < 0 ↔ determinant p q b < 0 := by
  have atLower := determinant_balance a b p q p.y
  have atUpper := determinant_balance a b p q q.y
  have difference := determinant_sub a b p q
  constructor
  · intro right
    by_contra notRight
    have lowerLeft : 0 ≤ determinant a b p := by nlinarith
    have upperRight : determinant a b q ≤ 0 := by nlinarith
    have same := determinant_eq_of_apart apart (by nlinarith) (by nlinarith)
    linarith
  · intro right
    by_contra notRight
    have lowerRight : determinant a b p ≤ 0 := by nlinarith
    have upperLeft : 0 ≤ determinant a b q := by nlinarith
    have same := determinant_eq_of_apart apart (by nlinarith) (by nlinarith)
    linarith

/-- A side from between the heights to above the upper height passes the upper ray just if it
begins to the right of the segment. -/
theorem right_iff_left_of_mid_high (apart : Segment.Apart ⟨a, b⟩ ⟨p, q⟩) (above : p.y < a.y)
    (mid : a.y ≤ q.y) (high : q.y < b.y) : determinant p q a < 0 ↔ 0 < determinant a b q := by
  have atStart := determinant_balance a b p q a.y
  have atUpper := determinant_balance a b p q q.y
  constructor
  · intro right
    by_contra notLeft
    have lowerLeft : 0 ≤ determinant a b p := by nlinarith
    have stopLeft : 0 ≤ determinant p q b := by nlinarith
    have same := determinant_eq_of_apart apart (by nlinarith) (by nlinarith)
    nlinarith
  · intro left
    by_contra notRight
    have lowerRight : determinant a b p ≤ 0 := by nlinarith
    have stopRight : determinant p q b ≤ 0 := by nlinarith
    have same := determinant_eq_of_apart apart (by nlinarith) (by nlinarith)
    nlinarith

/-- Whether a vertex is to the right of a segment, above the height of its start and not above
that of its stop, as a number. -/
def beside (p q vertex : Coord K) : Int :=
  if p.y < vertex.y ∧ vertex.y ≤ q.y ∧ determinant p q vertex < 0 then 1 else 0

/-- What a side that does not meet a segment passes at its ends differs by its own ends. -/
theorem passing_sub_of_upwards (apart : Segment.Apart ⟨a, b⟩ ⟨p, q⟩) (between : p.y ≤ q.y)
    (upwards : a.y ≤ b.y) :
    Segment.passing p ⟨a, b⟩ - Segment.passing q ⟨a, b⟩ = beside p q b - beside p q a := by
  simp only [Segment.passing_of_upwards upwards, beside]
  rcases le_or_gt a.y p.y with startLow | startAbove
  · rcases le_or_gt b.y p.y with stopLow | stopAbove
    · simp [startLow.not_gt, stopLow.not_gt, (stopLow.trans between).not_gt]
    · rcases le_or_gt b.y q.y with stopMid | stopHigh
      · have sides := left_iff_right_of_low_mid apart startLow stopAbove stopMid
        simp [startLow, startLow.not_gt, stopAbove, stopMid, stopMid.not_gt, sides]
      · have sides := left_iff_left_of_low_high apart startLow between stopHigh
        simp [startLow, startLow.not_gt, startLow.trans between, stopAbove, stopHigh,
          stopHigh.not_ge, sides]
  · rcases le_or_gt b.y q.y with stopMid | stopHigh
    · have sides := right_iff_right_of_mid_mid apart startAbove upwards stopMid
      simp [startAbove, startAbove.not_ge, startAbove.trans_le upwards, upwards.trans stopMid,
        stopMid, stopMid.not_gt, sides]
    · rcases le_or_gt a.y q.y with startMid | startHigh
      · have sides := right_iff_left_of_mid_high apart startAbove startMid stopHigh
        simp [startAbove, startAbove.not_ge, startMid, stopHigh, stopHigh.not_ge, sides]
      · simp [startAbove.not_ge, startHigh.not_ge, stopHigh.not_ge]

theorem passing_sub_of_apart (apart : Segment.Apart ⟨a, b⟩ ⟨p, q⟩) (between : p.y ≤ q.y) :
    Segment.passing p ⟨a, b⟩ - Segment.passing q ⟨a, b⟩ = beside p q b - beside p q a := by
  rcases le_total a.y b.y with upwards | downwards
  · exact passing_sub_of_upwards apart between upwards
  · have reversed : Segment.Apart ⟨b, a⟩ ⟨p, q⟩ :=
      fun common onSide onPath => apart common onSide.reverse onPath
    have difference := passing_sub_of_upwards reversed between downwards
    rw [Segment.passing_reverse p a b, Segment.passing_reverse q a b] at difference
    omega

end Sweep

/-! ## All sides -/

/-- How often segments pass the ray to the right of a point, upwards less downwards. -/
def passings (p : Coord K) (sides : List (Segment (Coord K))) : Int :=
  (sides.map (Segment.passing p)).sum

omit [Field K] [LinearOrder K] in
/-- Where two counts differ side by side by the ends of the sides, they differ by the ends of
the whole. -/
theorem sum_sub_of_stand {count other : Segment (Coord K) → Int} (stand : Coord K → Int)
    {first last : Coord K} {rest : List (Coord K)}
    (each : ∀ side ∈ segments (first :: rest),
      count side - other side = stand side.stop - stand side.start)
    (isLast : last ∈ (first :: rest).getLast?) :
    ((segments (first :: rest)).map count).sum - ((segments (first :: rest)).map other).sum =
      stand last - stand first := by
  induction rest generalizing first with
  | nil =>
      obtain rfl : first = last := by simpa using isLast
      simp [segments]
  | cons second rest ih =>
      have others := ih (fun side member => each side (List.mem_cons_of_mem _ member))
        (by simpa [List.getLast?_cons_cons] using isLast)
      have here : count ⟨first, second⟩ - other ⟨first, second⟩ = stand second - stand first :=
        each ⟨first, second⟩ List.mem_cons_self
      simp only [segments, List.map_cons, List.sum_cons]
      omega

variable [IsStrictOrderedRing K] {p q : Coord K}

theorem passings_eq_of_apart {ring : List (Coord K)} (closed : ring.head? = ring.getLast?)
    (apart : ∀ side ∈ segments ring, side.Apart ⟨p, q⟩) :
    passings p (segments ring) = passings q (segments ring) := by
  cases ring with
  | nil => rfl
  | cons first rest =>
      have isLast : first ∈ (first :: rest).getLast? := closed ▸ rfl
      rcases le_total p.y q.y with upwards | downwards
      · have difference := sum_sub_of_stand (beside p q)
          (fun side member => passing_sub_of_apart (apart side member) upwards) isLast
        rw [sub_self] at difference
        exact sub_eq_zero.mp difference
      · have reversed side (member : side ∈ segments (first :: rest)) : side.Apart ⟨q, p⟩ :=
          fun common onSide onPath => apart side member common onSide onPath.reverse
        have difference := sum_sub_of_stand (beside q p)
          (fun side member => passing_sub_of_apart (reversed side member) downwards) isLast
        rw [sub_self] at difference
        exact (sub_eq_zero.mp difference).symm

/-! ## The position of a point -/

/-- A point is on the edge of a ring. -/
def OnRing (ring : List (Coord K)) (p : Coord K) : Prop :=
  ∃ side ∈ segments ring, side.Holds p

variable [ExactRoot K]

namespace Segment

variable {side : Segment (Coord K)}

/-- Off a side, its winding is how it passes the ray. -/
theorem winding?_of_not_holds (off : ¬ side.Holds p) : side.winding? p = some (side.passing p) := by
  obtain ⟨a, b⟩ := side
  have notEdge (height : a.y ≤ p.y ∧ p.y ≤ b.y ∨ b.y ≤ p.y ∧ p.y ≤ a.y) :
      (Scalar.turn a b p == .straight && Scalar.between p.x a.x b.x) = false := by
    by_contra on
    rw [Bool.not_eq_false, Bool.and_eq_true, beq_iff_eq, turn_eq_straight_iff] at on
    exact off ((inCorners_iff on.1).mp
      (Bool.and_eq_true_iff.mpr ⟨on.2, Scalar.between_iff.mpr height⟩))
  simp only [winding?, passing, ← turn_eq_left_iff, ← turn_eq_right_iff]
  rcases le_or_gt a.y p.y with low | high
  · rcases lt_trichotomy p.y b.y with rises | level | falls
    · rw [notEdge (Or.inl ⟨low, rises.le⟩)]
      simp [low, low.not_gt, rises, rises.le, rises.ne', apply_ite]
    · rw [notEdge (Or.inl ⟨low, level.le⟩)]
      have upwards : a.y ≤ b.y := low.trans level.le
      simp [level, upwards, upwards.not_gt]
    · simp [low, low.not_gt, falls.not_ge, falls.not_gt]
  · rcases le_or_gt b.y p.y with falls | rises
    · rw [notEdge (Or.inr ⟨falls, high.le⟩)]
      simp [high, high.not_ge, falls, apply_ite]
    · simp [high.not_ge, rises.not_ge]

/-- Where the point is on a side, nothing passes, unless the side goes down from the point. -/
theorem winding?_of_holds (on : side.Holds p) : side.winding? p = none ∨ p = side.start := by
  obtain ⟨a, b⟩ := side
  have straight := turn_eq_straight_iff.mpr (determinant_of_holds on)
  obtain ⟨within, height⟩ :=
    Bool.and_eq_true_iff.mp ((inCorners_iff (determinant_of_holds on)).mpr on)
  rw [Scalar.between_iff] at height
  simp only [winding?, straight, within]
  by_cases low : a.y ≤ p.y
  · by_cases high : p.y ≤ b.y
    · simp [low, high]
    · have atStart : p.y = a.y := by
        rcases height with ⟨_, high'⟩ | ⟨_, low'⟩
        · exact absurd high' high
        · exact le_antisymm low' low
      right
      obtain ⟨fraction, _, _, rfl⟩ := on
      have falls : b.y - a.y ≠ 0 := (sub_neg.mpr (atStart ▸ not_le.mp high)).ne
      have none : fraction = 0 := by
        simpa [point, falls] using atStart
      rw [none, point_zero]
  · have falls : b.y ≤ p.y := by
      rcases height with ⟨low', _⟩ | ⟨falls, _⟩
      · exact absurd low' low
      · exact falls
    simp [low, falls]

theorem winding?_stop (side : Segment (Coord K)) : side.winding? side.stop = none := by
  obtain ⟨a, b⟩ := side
  rcases winding?_of_holds (holds_stop ⟨a, b⟩) with none | same
  · exact none
  · obtain rfl : b = a := same
    have straight := turn_eq_straight_iff.mpr (determinant_of_holds (holds_stop ⟨b, b⟩))
    have within : Scalar.between b.x b.x b.x = true := Scalar.between_iff.mpr (by simp)
    simp only at straight
    simp [winding?, straight, within]

end Segment

/-- A closed list of vertices with a side at least. -/
structure IsLoop (ring : List (Coord K)) : Prop where
  closed : isClosed ring = true
  long : 2 ≤ ring.length

variable {ring : List (Coord K)} {sides : List (Segment (Coord K))}

instance (ring : List (Coord K)) : Decidable (IsLoop ring) :=
  decidable_of_iff (isClosed ring = true ∧ 2 ≤ ring.length)
    ⟨fun ⟨closed, long⟩ => ⟨closed, long⟩, fun ⟨closed, long⟩ => ⟨closed, long⟩⟩

omit [IsStrictOrderedRing K] in
theorem winding?_eq_none_iff :
    winding? p sides = none ↔ ∃ side ∈ sides, side.winding? p = none := by
  induction sides with
  | nil => simp [winding?]
  | cons side rest ih =>
      cases here : side.winding? p <;> cases others : winding? p rest <;>
        simp_all [winding?]

theorem winding?_eq_passings (off : ∀ side ∈ sides, ¬ side.Holds p) :
    winding? p sides = some (passings p sides) := by
  induction sides with
  | nil => rfl
  | cons side rest ih =>
      have here := Segment.winding?_of_not_holds (off side List.mem_cons_self)
      have others := ih fun other member => off other (List.mem_cons_of_mem _ member)
      simp [winding?, passings, here, others]

omit [Field K] [LinearOrder K] [IsStrictOrderedRing K] [ExactRoot K] in
theorem mem_of_mem_segments {κ : Type} {vertices : List κ} {side : Segment κ}
    (member : side ∈ segments vertices) : side.start ∈ vertices ∧ side.stop ∈ vertices := by
  induction vertices with
  | nil => contradiction
  | cons first rest ih =>
      cases rest with
      | nil => contradiction
      | cons second rest =>
          rcases List.mem_cons.mp member with rfl | later
          · simp
          · obtain ⟨start, stop⟩ := ih later
            exact ⟨List.mem_cons_of_mem _ start, List.mem_cons_of_mem _ stop⟩

theorem exists_stop_of_mem {κ : Type} (first : κ) {vertex : κ} {rest : List κ}
    (member : vertex ∈ rest) :
    ∃ side ∈ segments (first :: rest), side.stop = vertex := by
  induction rest generalizing first with
  | nil => contradiction
  | cons second rest ih =>
      rcases List.mem_cons.mp member with rfl | later
      · exact ⟨⟨first, vertex⟩, List.mem_cons_self, rfl⟩
      · obtain ⟨side, isSide, stops⟩ := ih second later
        exact ⟨side, List.mem_cons_of_mem _ isSide, stops⟩

namespace IsLoop

omit [IsStrictOrderedRing K] in
/-- Where a side of a loop begins another stops. -/
theorem exists_stop (loop : IsLoop ring) {vertex : Coord K} (member : vertex ∈ ring) :
    ∃ side ∈ segments ring, side.stop = vertex := by
  match ring, loop with
  | first :: second :: rest, ⟨closed, _⟩ =>
      rcases List.mem_cons.mp member with rfl | later
      · rw [isClosed_iff, List.getLast?_cons_cons] at closed
        exact exists_stop_of_mem vertex (List.mem_of_getLast? closed.symm)
      · exact exists_stop_of_mem first later

omit [IsStrictOrderedRing K] in
theorem ringPosition_eq (loop : IsLoop ring) (p : Coord K) :
    ringPosition ring p =
      match winding? p (segments ring) with
      | none => .boundary
      | some 0 => .outside
      | some _ => .inside := by
  match ring, loop with
  | _ :: _ :: _, _ => rfl

theorem winding?_eq_none_iff_onRing (loop : IsLoop ring) :
    winding? p (segments ring) = none ↔ OnRing ring p := by
  rw [winding?_eq_none_iff]
  constructor
  · rintro ⟨side, member, none⟩
    refine ⟨side, member, ?_⟩
    by_contra off
    rw [Segment.winding?_of_not_holds off] at none
    contradiction
  · rintro ⟨side, member, on⟩
    rcases Segment.winding?_of_holds on with none | rfl
    · exact ⟨side, member, none⟩
    · obtain ⟨before, isSide, stops⟩ := loop.exists_stop (mem_of_mem_segments member).1
      exact ⟨before, isSide, stops ▸ before.winding?_stop⟩

/-- What is on the edge of a loop is on its boundary. -/
theorem ringPosition_eq_boundary_iff (loop : IsLoop ring) :
    ringPosition ring p = .boundary ↔ OnRing ring p := by
  rw [loop.ringPosition_eq, ← loop.winding?_eq_none_iff_onRing]
  split <;> simp_all

/-- A loop winds around two points alike if it does not meet the segment between them. -/
theorem ringPosition_eq_of_apart (loop : IsLoop ring)
    (apart : ∀ side ∈ segments ring, side.Apart ⟨p, q⟩) :
    ringPosition ring p = ringPosition ring q := by
  have offStart side (member : side ∈ segments ring) : ¬ side.Holds p :=
    fun on => apart side member p on (Segment.holds_start ⟨p, q⟩)
  have offStop side (member : side ∈ segments ring) : ¬ side.Holds q :=
    fun on => apart side member q on (Segment.holds_stop ⟨p, q⟩)
  rw [loop.ringPosition_eq, loop.ringPosition_eq, winding?_eq_passings offStart,
    winding?_eq_passings offStop, passings_eq_of_apart (isClosed_iff.mp loop.closed) apart]

end IsLoop

end Gazetteer
