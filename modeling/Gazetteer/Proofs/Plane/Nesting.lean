import Gazetteer.Proofs.Plane.Winding
import Mathlib.Order.Bounds.Basic

/-!
# Loops within loops

Loops that have no point in common are either apart or one of them is within the other, and
what is inside the inner one is inside the outer one.  A path from a point to another reaches
the loops in some point first.  Up to there it meets neither, so the loop that is not reached
winds around its start as it does around the other loop.
-/

namespace Gazetteer

open Exact

variable {K : Type} [Field K] [LinearOrder K] [IsStrictOrderedRing K]

/-! ## What a path reaches first -/

namespace Segment

variable {side path : Segment (Coord K)} {sides : List (Segment (Coord K))} {t u v : K}

theorem holds_point_of_between (low : t ≤ v) (high : v ≤ u) :
    Holds ⟨path.point t, path.point u⟩ (path.point v) := by
  rcases (low.trans high).eq_or_lt with rfl | less
  · obtain rfl := le_antisymm low high
    exact holds_start _
  · have gap : 0 < u - t := sub_pos.mpr less
    refine ⟨(v - t) / (u - t), div_nonneg (sub_nonneg.mpr low) gap.le,
      (div_le_one gap).mpr (by linarith), ?_⟩
    rw [point_point]
    congr 1
    field_simp
    ring

omit [LinearOrder K] [IsStrictOrderedRing K] in
/-- A segment that has two points of a path is all on the line of the path. -/
theorem exists_point_eq {m n : K} (differ : t ≠ u) (first : side.point m = path.point t)
    (second : side.point n = path.point u) (apart : path.start ≠ path.stop) :
    ∃ α β, ∀ s, side.point s = path.point (α + β * s) := by
  have gap : n - m ≠ 0 := by
    intro none
    rw [sub_eq_zero.mp none, first] at second
    exact differ (point_injective apart second)
  refine ⟨t - m * (u - t) / (n - m), (u - t) / (n - m), fun s => ?_⟩
  obtain ⟨firstX, firstY⟩ := Coord.ext_iff.mp first
  obtain ⟨secondX, secondY⟩ := Coord.ext_iff.mp second
  simp only [point] at firstX firstY secondX secondY
  rw [Coord.ext_iff]
  constructor
  · simp only [point]
    field_simp
    linear_combination (n - s) * firstX + (s - m) * secondX
  · simp only [point]
    field_simp
    linear_combination (n - s) * firstY + (s - m) * secondY

/-- How far along a path some sides are reached. -/
def reached (path : Segment (Coord K)) (sides : List (Segment (Coord K))) : Set K :=
  {t | 0 ≤ t ∧ ∃ side ∈ sides, side.Holds (path.point t)}

omit [IsStrictOrderedRing K] in
theorem reached_cons :
    path.reached (side :: sides) = path.reached [side] ∪ path.reached sides := by
  ext t
  simp only [reached, Set.mem_ofPred_eq, Set.mem_union, List.mem_cons, List.not_mem_nil, or_false,
    exists_eq_left, or_and_right, exists_or, and_or_left]

/-- A side that is reached by a path is reached first at the start of the path, where it crosses
the path or at the nearer end. -/
theorem exists_isLeast_reached_side (nonempty : (path.reached [side]).Nonempty) :
    ∃ t, IsLeast (path.reached [side]) t := by
  obtain ⟨t, isReached⟩ := nonempty
  simp only [reached, List.mem_singleton, exists_eq_left, Set.mem_ofPred_eq] at isReached ⊢
  by_cases atStart : side.Holds (path.point 0)
  · exact ⟨0, ⟨le_rfl, atStart⟩, fun u reached => reached.1⟩
  by_cases isLeast : ∀ u, 0 ≤ u → side.Holds (path.point u) → t ≤ u
  · exact ⟨t, isReached, fun u reached => isLeast u reached.1 reached.2⟩
  push Not at isLeast
  obtain ⟨tLow, isReached⟩ := isReached
  obtain ⟨u, uLow, isReachedToo, less⟩ := isLeast
  have apart : path.start ≠ path.stop := by
    intro same
    have still (w : K) : path.point w = path.start := by
      obtain ⟨p, q⟩ := path
      obtain rfl : p = q := same
      exact point_of_same p w
    rw [still] at atStart isReached
    exact atStart isReached
  obtain ⟨α, β, onLine⟩ : ∃ α β, ∀ s, side.point s = path.point (α + β * s) := by
    obtain ⟨m, _, _, first⟩ := isReachedToo
    obtain ⟨n, _, _, second⟩ := isReached
    exact exists_point_eq less.ne first second apart
  have nearer : side.Holds (path.point (min α (α + β))) := by
    rcases min_choice α (α + β) with isStart | isStop
    · rw [isStart]
      exact ⟨0, le_rfl, zero_le_one, by rw [onLine, mul_zero, add_zero]⟩
    · rw [isStop]
      exact ⟨1, zero_le_one, le_rfl, by rw [onLine, mul_one]⟩
  have ahead : 0 ≤ min α (α + β) := by
    by_contra behind
    exact atStart (nearer.between isReached (holds_point_of_between (not_le.mp behind).le tLow))
  refine ⟨min α (α + β), ⟨ahead, nearer⟩, ?_⟩
  rintro v ⟨_, s, sLow, sHigh, same⟩
  rw [onLine] at same
  have mean : (1 - s) * α + s * (α + β) = v := by
    obtain ⟨p, q⟩ := path
    rw [← point_injective apart same]
    ring
  exact mean ▸ le_mean sLow sHigh (min_le_left α (α + β)) (min_le_right α (α + β))

/-- Of sides that a path reaches, one is reached first. -/
theorem exists_isLeast_reached (nonempty : (path.reached sides).Nonempty) :
    ∃ t, IsLeast (path.reached sides) t := by
  induction sides with
  | nil =>
      obtain ⟨t, _, side, member, _⟩ := nonempty
      contradiction
  | cons side rest ih =>
      rw [reached_cons] at nonempty ⊢
      by_cases here : (path.reached [side]).Nonempty
      · obtain ⟨t, isFirst⟩ := exists_isLeast_reached_side here
        by_cases later : (path.reached rest).Nonempty
        · obtain ⟨u, isFirstLater⟩ := ih later
          exact ⟨min t u, isFirst.union isFirstLater⟩
        · rw [Set.not_nonempty_iff_eq_empty.mp later, Set.union_empty]
          exact ⟨t, isFirst⟩
      · rw [Set.not_nonempty_iff_eq_empty.mp here, Set.empty_union] at nonempty ⊢
        exact ih nonempty

/-- A path that meets some sides has a point up to which it meets them nowhere else. -/
theorem exists_first {p q : Coord K} (meets : ¬ ∀ side ∈ sides, side.Apart ⟨p, q⟩) :
    ∃ x, (∃ side ∈ sides, side.Holds x) ∧
      ∀ side ∈ sides, ∀ y, side.Holds y → Holds ⟨p, x⟩ y → y = x := by
  obtain ⟨t, isReached⟩ : (reached ⟨p, q⟩ sides).Nonempty := by
    by_contra unreached
    refine meets fun side isSide y onSide between => unreached ?_
    obtain ⟨t, low, _, rfl⟩ := between
    exact ⟨t, low, side, isSide, onSide⟩
  obtain ⟨u, ⟨low, onSome⟩, isFirst⟩ := exists_isLeast_reached ⟨t, isReached⟩
  refine ⟨point ⟨p, q⟩ u, onSome, fun side isSide y onSide between => ?_⟩
  obtain ⟨v, vLow, vHigh, rfl⟩ := between
  have along : point ⟨p, point ⟨p, q⟩ u⟩ v = point ⟨p, q⟩ (v * u) := by
    have mean := point_point ⟨p, q⟩ 0 u v
    rwa [mul_zero, zero_add, point_zero] at mean
  rw [along] at onSide ⊢
  have notBefore : u ≤ v * u := isFirst ⟨mul_nonneg vLow low, side, isSide, onSide⟩
  rw [le_antisymm (mul_le_of_le_one_left low vHigh) notBefore]

end Segment

/-! ## Loops that have no point in common -/

/-- Rings without a common point. -/
def Separate (first second : List (Coord K)) : Prop :=
  ∀ p, OnRing first p → ¬ OnRing second p

omit [IsStrictOrderedRing K] in
theorem Separate.symm {first second : List (Coord K)} (separate : Separate first second) :
    Separate second first :=
  fun p onSecond onFirst => separate p onFirst onSecond

instance : Std.Symm (@Separate K _ _) := ⟨fun _ _ => Separate.symm⟩

variable [ExactRoot K]

/-- The test for rings that meet. -/
theorem Gauge.ringsMeet_eq_false_iff {first second : List (Coord K)} :
    (plane K).ringsMeet first second = false ↔ Separate first second := by
  simp only [ringsMeet, List.any_eq_false, Bool.not_eq_true]
  constructor
  · rintro apart p ⟨side, isSide, on⟩ ⟨other, isOther, onOther⟩
    exact Segment.meets_eq_false_iff.mp (apart side isSide other isOther) p on onOther
  · intro separate side isSide other isOther
    exact Segment.meets_eq_false_iff.mpr fun p on onOther =>
      separate p ⟨side, isSide, on⟩ ⟨other, isOther, onOther⟩

/-- The edge of a ring is inside another ring. -/
def Within (inner outer : List (Coord K)) : Prop :=
  ∀ p, OnRing inner p → ringPosition outer p = .inside

/-- The first vertex of a ring is inside another ring. -/
def BeginsInside (inner outer : List (Coord K)) : Prop :=
  ∃ vertex ∈ inner.head?, ringPosition outer vertex = .inside

instance (inner outer : List (Coord K)) : Decidable (BeginsInside inner outer) :=
  inferInstanceAs (Decidable (∃ vertex ∈ inner.head?, ringPosition outer vertex = .inside))

variable {first second third : List (Coord K)} {p q : Coord K}

/-- What neighbours have in common, all have in common with the first. -/
theorem eq_of_segments {κ α : Type} {value : κ → α} {first : κ} {rest : List κ}
    (each : ∀ side ∈ segments (first :: rest), value side.start = value side.stop)
    {side : Segment κ} (member : side ∈ segments (first :: rest)) :
    value side.start = value first := by
  induction rest generalizing first with
  | nil => contradiction
  | cons second rest ih =>
      rcases List.mem_cons.mp member with rfl | later
      · rfl
      · have here : value first = value second := each ⟨first, second⟩ List.mem_cons_self
        rw [here]
        exact ih (fun side member => each side (List.mem_cons_of_mem _ member)) later

namespace IsLoop

theorem onRing_of_mem (loop : IsLoop first) {vertex : Coord K} (member : vertex ∈ first) :
    OnRing first vertex := by
  obtain ⟨side, isSide, rfl⟩ := loop.exists_stop member
  exact ⟨side, isSide, side.holds_stop⟩

/-- A loop winds alike around all points of a ring that it does not meet. -/
theorem ringPosition_eq_of_onRing (loop : IsLoop second) (separate : Separate first second)
    (onFirst : OnRing first p) (onFirstToo : OnRing first q) :
    ringPosition second p = ringPosition second q := by
  have alike {side : Segment (Coord K)} {x : Coord K} (isSide : side ∈ segments first)
      (on : side.Holds x) : ringPosition second side.start = ringPosition second x := by
    refine loop.ringPosition_eq_of_apart fun other isOther y onOther between => ?_
    exact separate y ⟨side, isSide, side.holds_start.between on between⟩ ⟨other, isOther, onOther⟩
  obtain ⟨side, isSide, on⟩ := onFirst
  obtain ⟨sideToo, isSideToo, onToo⟩ := onFirstToo
  cases first with
  | nil => contradiction
  | cons vertex rest =>
      have each side (isSide : side ∈ segments (vertex :: rest)) := alike isSide side.holds_stop
      rw [← alike isSide on, ← alike isSideToo onToo, eq_of_segments each isSide,
        eq_of_segments each isSideToo]

/-- On a path from a point to another, two loops that have no point in common are either not met
or one of them is reached first. -/
theorem reached_first (loop : IsLoop first) (other : IsLoop second)
    (separate : Separate first second) (p q : Coord K) :
    (ringPosition first p = ringPosition first q ∧ ringPosition second p = ringPosition second q) ∨
      (∃ x, OnRing first x ∧ ringPosition second p = ringPosition second x) ∨
        ∃ x, OnRing second x ∧ ringPosition first p = ringPosition first x := by
  by_cases unmet : ∀ side ∈ segments first ++ segments second, side.Apart ⟨p, q⟩
  · left
    constructor
    · exact loop.ringPosition_eq_of_apart fun side isSide =>
        unmet side (List.mem_append_left _ isSide)
    · exact other.ringPosition_eq_of_apart fun side isSide =>
        unmet side (List.mem_append_right _ isSide)
  · right
    obtain ⟨x, ⟨side, member, on⟩, alone⟩ := Segment.exists_first unmet
    rcases List.mem_append.mp member with isFirst | isSecond
    · left
      refine ⟨x, ⟨side, isFirst, on⟩, other.ringPosition_eq_of_apart ?_⟩
      intro sideToo isSideToo y onSide between
      obtain rfl := alone sideToo (List.mem_append_right _ isSideToo) y onSide between
      exact separate y ⟨side, isFirst, on⟩ ⟨sideToo, isSideToo, onSide⟩
    · right
      refine ⟨x, ⟨side, isSecond, on⟩, loop.ringPosition_eq_of_apart ?_⟩
      intro sideToo isSideToo y onSide between
      obtain rfl := alone sideToo (List.mem_append_left _ isSideToo) y onSide between
      exact separate y ⟨sideToo, isSideToo, onSide⟩ ⟨side, isSecond, on⟩

omit [IsStrictOrderedRing K] in
theorem exists_head (loop : IsLoop first) : ∃ vertex, first.head? = some vertex := by
  match first, loop with
  | vertex :: _, _ => exact ⟨vertex, rfl⟩

omit [IsStrictOrderedRing K] in
theorem exists_mem (loop : IsLoop first) : ∃ vertex, vertex ∈ first := by
  obtain ⟨vertex, isFirst⟩ := loop.exists_head
  exact ⟨vertex, List.mem_of_head? isFirst⟩

theorem ringPosition_of_outside (loop : IsLoop first) {bounds : Bounds K}
    (held : ∀ vertex ∈ first, bounds.holds vertex = true) (outside : bounds.holds p = false) :
    ringPosition first p = .outside := by
  rw [loop.ringPosition_eq]
  match first, loop with
  | _ :: _, loop => simp only [winding?_of_outside held loop.closed outside]

/-- Far to the right of two loops there is a point that is outside both. -/
theorem exists_outside (loop : IsLoop first) (other : IsLoop second) :
    ∃ q, ringPosition first q = .outside ∧ ringPosition second q = .outside := by
  obtain ⟨bounds, around⟩ : ∃ bounds, Bounds.around? (first ++ second) = some bounds := by
    match first, loop with
    | _ :: _, _ => exact ⟨_, rfl⟩
  have held vertex (member : vertex ∈ first ++ second) := Bounds.around?_holds around member
  have outside : bounds.holds ⟨bounds.maxLon + 1, 0⟩ = false := by
    rw [Bool.eq_false_iff, Ne, Bounds.holds_iff]
    rintro ⟨⟨_, within⟩, _⟩
    exact absurd within (not_le.mpr (lt_add_one bounds.maxLon))
  exact ⟨_,
    loop.ringPosition_of_outside (fun v member => held v (List.mem_append_left _ member)) outside,
    other.ringPosition_of_outside (fun v member => held v (List.mem_append_right _ member)) outside⟩

end IsLoop

namespace Within

theorem irrefl (loop : IsLoop first) : ¬ Within first first := by
  intro within
  obtain ⟨vertex, member⟩ := loop.exists_mem
  have on := loop.onRing_of_mem member
  have onBoundary := loop.ringPosition_eq_boundary_iff.mpr on
  rw [within vertex on] at onBoundary
  contradiction

theorem of_onRing (other : IsLoop second) (separate : Separate first second)
    (on : OnRing first p) (inside : ringPosition second p = .inside) : Within first second :=
  fun _ onToo => (other.ringPosition_eq_of_onRing separate onToo on).trans inside

/-- Of two loops that have no point in common, not both are within the other. -/
theorem asymm (loop : IsLoop first) (other : IsLoop second) (separate : Separate first second)
    (within : Within first second) : ¬ Within second first := by
  intro around
  obtain ⟨q, outFirst, outSecond⟩ := loop.exists_outside other
  obtain ⟨vertex, member⟩ := loop.exists_mem
  rcases loop.reached_first other separate q vertex with ⟨same, _⟩ | ⟨x, on, same⟩ | ⟨x, on, same⟩
  · rw [outFirst, loop.ringPosition_eq_boundary_iff.mpr (loop.onRing_of_mem member)] at same
    contradiction
  · rw [outSecond, within x on] at same
    contradiction
  · rw [outFirst, around x on] at same
    contradiction

/-- What is inside a loop is inside every loop around it. -/
theorem inside (loop : IsLoop first) (other : IsLoop second) (separate : Separate first second)
    (within : Within first second) (inside : ringPosition first p = .inside) :
    ringPosition second p = .inside := by
  obtain ⟨q, outFirst, outSecond⟩ := loop.exists_outside other
  rcases loop.reached_first other separate p q with ⟨same, _⟩ | ⟨x, on, same⟩ | ⟨x, on, same⟩
  · rw [inside, outFirst] at same
    contradiction
  · rw [same, within x on]
  · have around := of_onRing loop separate.symm on (same.symm.trans inside)
    exact absurd around (within.asymm loop other separate)

/-- Of two loops around one point that have no point in common, one is within the other. -/
theorem of_inside (loop : IsLoop first) (other : IsLoop second) (separate : Separate first second)
    (insideFirst : ringPosition first p = .inside)
    (insideSecond : ringPosition second p = .inside) :
    Within first second ∨ Within second first := by
  obtain ⟨q, outFirst, outSecond⟩ := loop.exists_outside other
  rcases loop.reached_first other separate p q with ⟨same, _⟩ | ⟨x, on, same⟩ | ⟨x, on, same⟩
  · rw [insideFirst, outFirst] at same
    contradiction
  · exact Or.inl (of_onRing other separate on (same.symm.trans insideSecond))
  · exact Or.inr (of_onRing loop separate.symm on (same.symm.trans insideFirst))

/-- Whether a loop is within another is told from its first vertex. -/
theorem iff_beginsInside (loop : IsLoop first) (other : IsLoop second)
    (separate : Separate first second) : Within first second ↔ BeginsInside first second := by
  constructor
  · intro within
    obtain ⟨vertex, isFirst⟩ := loop.exists_head
    exact ⟨vertex, isFirst, within vertex (loop.onRing_of_mem (List.mem_of_head? isFirst))⟩
  · rintro ⟨vertex, isFirst, inside⟩
    exact of_onRing other separate (loop.onRing_of_mem (List.mem_of_head? isFirst)) inside

end Within

/-! ## Regions -/

/-- A point is inside a ring or on its edge. -/
def Covers (ring : List (Coord K)) (p : Coord K) : Prop :=
  ringPosition ring p ≠ .outside

theorem IsLoop.covers_iff (loop : IsLoop first) :
    Covers first p ↔ OnRing first p ∨ ringPosition first p = .inside := by
  rw [Covers, ← loop.ringPosition_eq_boundary_iff]
  cases ringPosition first p <;> simp

theorem Within.inside_of_covers (loop : IsLoop first) (other : IsLoop second)
    (separate : Separate first second) (within : Within first second) (covers : Covers first p) :
    ringPosition second p = .inside := by
  rcases loop.covers_iff.mp covers with on | inside
  · exact within p on
  · exact within.inside loop other separate inside

/-- Loops that have no point in common have a part of their regions in common exactly if one of
them is within the other. -/
theorem covers_disjoint_iff (loop : IsLoop first) (other : IsLoop second)
    (separate : Separate first second) :
    (∀ p, Covers first p → ¬ Covers second p) ↔
      ¬ Within first second ∧ ¬ Within second first := by
  constructor
  · intro disjoint
    refine ⟨fun within => ?_, fun within => ?_⟩
    · obtain ⟨vertex, member⟩ := loop.exists_mem
      have on := loop.onRing_of_mem member
      exact disjoint vertex (loop.covers_iff.mpr (Or.inl on))
        (other.covers_iff.mpr (Or.inr (within vertex on)))
    · obtain ⟨vertex, member⟩ := other.exists_mem
      have on := other.onRing_of_mem member
      exact disjoint vertex (loop.covers_iff.mpr (Or.inr (within vertex on)))
        (other.covers_iff.mpr (Or.inl on))
  · rintro ⟨notWithin, notAround⟩ p coversFirst coversSecond
    rcases loop.covers_iff.mp coversFirst with onFirst | insideFirst <;>
      rcases other.covers_iff.mp coversSecond with onSecond | insideSecond
    · exact separate p onFirst onSecond
    · exact notWithin (Within.of_onRing other separate onFirst insideSecond)
    · exact notAround (Within.of_onRing loop separate.symm onSecond insideFirst)
    · exact (Within.of_inside loop other separate insideFirst insideSecond).elim notWithin notAround

/-! ## Polygons -/

section Polygons

omit [IsStrictOrderedRing K]

theorem holesPosition_eq_inside_iff {holes : List (List (Coord K))} :
    holesPosition p holes = .inside ↔ ∀ hole ∈ holes, ringPosition hole p = .outside := by
  induction holes with
  | nil => simp [holesPosition]
  | cons hole rest ih =>
      rw [holesPosition, List.forall_mem_cons, ← ih]
      cases ringPosition hole p <;> simp

/-- A polygon holds what is inside its outline and outside all of its holes. -/
theorem Polygon.contains_iff {polygon : Polygon (Coord K)} :
    polygon.contains p = true ↔ ringPosition polygon.exterior p = .inside ∧
      ∀ hole ∈ polygon.interiors, ringPosition hole p = .outside := by
  rw [contains, beq_iff_eq, position, ← holesPosition_eq_inside_iff]
  cases ringPosition polygon.exterior p <;> simp

end Polygons

end Gazetteer
