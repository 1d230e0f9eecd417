import Gazetteer.Proofs.Plane.Exact
import Gazetteer.Proofs.Plane.Idempotence
import Gazetteer.Spatial
import Mathlib.Tactic.Linarith

/-!
# Boxes hold what their areas hold

A closed ring does not wind around a point outside its box.  Above, below and to the right of
the box the ray to the right of the point meets no segment.  To the left of it the ray meets
every segment that passes its height, and a closed ring passes it downwards as often as
upwards.
-/

namespace Gazetteer

variable {K : Type} [Field K] [LinearOrder K] [ExactRoot K]

namespace Exact

theorem turn_eq_left_iff {a b c : Coord K} :
    Scalar.turn a b c = .left ↔ 0 < determinant a b c := by
  simp only [Scalar.turn]
  split_ifs <;> simp_all

theorem turn_eq_right_iff {a b c : Coord K} :
    Scalar.turn a b c = .right ↔ determinant a b c < 0 := by
  simp only [Scalar.turn]
  split_ifs <;> simp_all [le_of_lt]

theorem eq_of_beq {p q : Coord K} (equal : (p == q) = true) : p = q := by
  obtain ⟨sameX, sameY⟩ := Bool.and_eq_true_iff.mp equal
  exact Coord.mk.injEq .. |>.mpr ⟨LawfulBEq.eq_of_beq sameX, LawfulBEq.eq_of_beq sameY⟩

end Exact

/-! ## Boxes -/

namespace Bounds

theorem holds_iff {bounds : Bounds K} {p : Coord K} :
    bounds.holds p = true ↔
      (bounds.minLon ≤ p.x ∧ p.x ≤ bounds.maxLon) ∧ bounds.minLat ≤ p.y ∧ p.y ≤ bounds.maxLat := by
  simp [holds, and_assoc]

/-- A stretched interval holds what it held, and the new number. -/
theorem stretch_holds (interval : K × K) {held : K} (holds : interval.1 ≤ held ∧ held ≤ interval.2)
    (value : K) :
    ((stretch interval value).1 ≤ held ∧ held ≤ (stretch interval value).2) ∧
      (stretch interval value).1 ≤ value ∧ value ≤ (stretch interval value).2 := by
  obtain ⟨low, high⟩ := holds
  unfold stretch
  split_ifs with above below
  · exact ⟨⟨low, high.trans above.le⟩, (low.trans high).trans above.le, le_rfl⟩
  · exact ⟨⟨below.le.trans low, high⟩, le_rfl, not_lt.mp above⟩
  · exact ⟨⟨low, high⟩, not_lt.mp below, not_lt.mp above⟩

theorem widen_holds {bounds : Bounds K} {held : Coord K} (holds : bounds.holds held = true)
    (p : Coord K) : (bounds.widen p).holds held = true ∧ (bounds.widen p).holds p = true := by
  obtain ⟨lon, lat⟩ := holds_iff.mp holds
  obtain ⟨lonHeld, lonNew⟩ := stretch_holds (bounds.minLon, bounds.maxLon) lon p.x
  obtain ⟨latHeld, latNew⟩ := stretch_holds (bounds.minLat, bounds.maxLat) lat p.y
  exact ⟨holds_iff.mpr ⟨lonHeld, latHeld⟩, holds_iff.mpr ⟨lonNew, latNew⟩⟩

theorem foldl_widen_holds {bounds : Bounds K} {held : Coord K} (holds : bounds.holds held = true)
    {vertices : List (Coord K)} {vertex : Coord K} (member : vertex = held ∨ vertex ∈ vertices) :
    (vertices.foldl widen bounds).holds vertex = true := by
  induction vertices generalizing bounds held with
  | nil =>
      obtain rfl := member.resolve_right List.not_mem_nil
      exact holds
  | cons next rest ih =>
      obtain ⟨stillHeld, isHeld⟩ := widen_holds holds next
      rcases member with rfl | member
      · exact ih stillHeld (Or.inl rfl)
      · exact ih isHeld (List.mem_cons.mp member)

/-- The box around some points holds each of them. -/
theorem around?_holds {vertices : List (Coord K)} {bounds : Bounds K}
    (around : around? vertices = some bounds) {vertex : Coord K} (member : vertex ∈ vertices) :
    bounds.holds vertex = true := by
  cases vertices with
  | nil => contradiction
  | cons first rest =>
      obtain rfl := Option.some.inj around
      exact foldl_widen_holds (by simp [holds_iff, ofPoint]) (List.mem_cons.mp member)

/-- Putting the corners of a box the right way round loses nothing. -/
theorem ordered_holds {bounds : Bounds K} {p : Coord K} (holds : bounds.holds p = true) :
    bounds.ordered.holds p = true := by
  obtain ⟨⟨west, east⟩, south, north⟩ := holds_iff.mp holds
  simp only [holds_iff, ordered, Exact.least_eq_min, Exact.greatest_eq_max]
  exact ⟨⟨min_le_of_right_le west, le_max_of_le_left east⟩,
    min_le_of_right_le south, le_max_of_le_left north⟩

end Bounds

/-! ## Rings that do not wind around a point -/

section Winding

variable {p a b : Coord K}

theorem between_eq_false {value bound other : K}
    (beside : value < bound ∧ value < other ∨ bound < value ∧ other < value) :
    Scalar.between value bound other = false := by
  unfold Scalar.between
  rcases beside with ⟨less, lessToo⟩ | ⟨more, moreToo⟩
  · simp [less, lessToo]
  · simp [more, moreToo]

/-- The ray from a point below a segment does not meet it. -/
theorem Segment.winding?_of_below (below : p.y < a.y ∧ p.y < b.y) :
    winding? p ⟨a, b⟩ = some 0 := by
  rw [winding?, if_neg (not_le.mpr below.1), if_neg (not_le.mpr below.2)]

theorem Segment.winding?_of_above (above : a.y < p.y ∧ b.y < p.y) :
    winding? p ⟨a, b⟩ = some 0 := by
  rw [winding?, if_pos above.1.le, if_neg (not_le.mpr above.2)]

variable [IsStrictOrderedRing K]

theorem Segment.winding?_of_right (right : a.x < p.x ∧ b.x < p.x) :
    winding? p ⟨a, b⟩ = some 0 := by
  have behindA : a.x - p.x ≤ 0 := (sub_neg.mpr right.1).le
  have behindB : b.x - p.x ≤ 0 := (sub_neg.mpr right.2).le
  unfold winding?
  simp only [between_eq_false (Or.inr right), Bool.and_false]
  by_cases low : a.y ≤ p.y
  · by_cases high : p.y ≤ b.y
    · have notLeft : Scalar.turn a b p ≠ .left := by
        rw [Ne, Exact.turn_eq_left_iff, Exact.determinant, not_lt]
        have first := mul_nonpos_of_nonpos_of_nonneg behindA (sub_nonneg.mpr high)
        have second := mul_nonneg_of_nonpos_of_nonpos (sub_nonpos.mpr low) behindB
        linarith
      simp [low, high, notLeft]
    · simp [low, high]
  · by_cases high : b.y ≤ p.y
    · have notRight : Scalar.turn a b p ≠ .right := by
        rw [Ne, Exact.turn_eq_right_iff, Exact.determinant, not_lt]
        have first := mul_nonneg_of_nonpos_of_nonpos behindA (sub_nonpos.mpr high)
        have second := mul_nonpos_of_nonneg_of_nonpos (sub_pos.mpr (not_le.mp low)).le behindB
        linarith
      simp [low, high, notRight]
    · simp [low, high]

/-- Whether a vertex is above a point, as a number. -/
def above (p vertex : Coord K) : Int :=
  if p.y < vertex.y then 1 else 0

/-- The ray from a point to the left of a segment meets it if exactly one of its ends is above
the point. -/
theorem Segment.winding?_of_left (left : p.x < a.x ∧ p.x < b.x) :
    winding? p ⟨a, b⟩ = some (above p b - above p a) := by
  have aheadA : 0 < a.x - p.x := sub_pos.mpr left.1
  have aheadB : 0 < b.x - p.x := sub_pos.mpr left.2
  unfold winding?
  simp only [between_eq_false (Or.inl left), Bool.and_false]
  by_cases low : a.y ≤ p.y
  · rcases lt_trichotomy b.y p.y with less | level | more
    · simp [above, low, not_lt.mpr low, not_le.mpr less, less.not_gt]
    · simp [above, low, not_lt.mpr low, level]
    · have isLeft : Scalar.turn a b p = .left := by
        rw [Exact.turn_eq_left_iff, Exact.determinant]
        have first := mul_pos aheadA (sub_pos.mpr more)
        have second := mul_nonpos_of_nonpos_of_nonneg (sub_nonpos.mpr low) aheadB.le
        linarith
      simp [above, low, not_lt.mpr low, more, more.le, isLeft, more.ne']
  · by_cases high : b.y ≤ p.y
    · have isRight : Scalar.turn a b p = .right := by
        rw [Exact.turn_eq_right_iff, Exact.determinant]
        have first := mul_nonpos_of_nonneg_of_nonpos aheadA.le (sub_nonpos.mpr high)
        have second := mul_pos (sub_pos.mpr (not_le.mp low)) aheadB
        linarith
      simp [above, low, high, not_lt.mpr high, isRight, not_le.mp low]
    · simp [above, low, high, not_le.mp low, not_le.mp high]

omit [IsStrictOrderedRing K] in
/-- What segments count by their ends adds up to the ends of the whole. -/
theorem winding?_segments {stand : Coord K → Int} {first last : Coord K} {rest : List (Coord K)}
    (each : ∀ a ∈ first :: rest, ∀ b ∈ first :: rest,
      Segment.winding? p ⟨a, b⟩ = some (stand b - stand a))
    (isLast : last ∈ (first :: rest).getLast?) :
    winding? p (segments (first :: rest)) = some (stand last - stand first) := by
  induction rest generalizing first with
  | nil =>
      obtain rfl : first = last := by simpa using isLast
      simp [segments, winding?]
  | cons second rest ih =>
      have others := ih (fun a isA b isB => each a (.tail _ isA) b (.tail _ isB))
        (by simpa [List.getLast?_cons_cons] using isLast)
      have here := each first (by simp) second (by simp)
      simp [segments, winding?, here, others]

/-- A closed ring does not wind around a point outside a box that holds its vertices. -/
theorem winding?_of_outside {first : Coord K} {rest : List (Coord K)} {bounds : Bounds K}
    (held : ∀ vertex ∈ first :: rest, bounds.holds vertex = true)
    (closed : isClosed (first :: rest) = true) (outside : bounds.holds p = false) :
    winding? p (segments (first :: rest)) = some 0 := by
  obtain ⟨last, isLast⟩ : ∃ last, last ∈ (first :: rest).getLast? :=
    ⟨_, List.getLast?_eq_some_getLast (List.cons_ne_nil first rest)⟩
  have same : first = last := by
    apply Exact.eq_of_beq
    simpa [isClosed, Option.mem_def.mp isLast] using closed
  have each (stand : Coord K → Int)
      (counts : ∀ a ∈ first :: rest, ∀ b ∈ first :: rest,
        Segment.winding? p ⟨a, b⟩ = some (stand b - stand a)) :
      winding? p (segments (first :: rest)) = some 0 := by
    rw [winding?_segments counts isLast, same, sub_self]
  have within vertex (member : vertex ∈ first :: rest) := Bounds.holds_iff.mp (held vertex member)
  have beside : p.x < bounds.minLon ∨ bounds.maxLon < p.x ∨
      p.y < bounds.minLat ∨ bounds.maxLat < p.y := by
    by_contra inside
    push Not at inside
    obtain ⟨west, east, south, north⟩ := inside
    exact Bool.eq_false_iff.mp outside (Bounds.holds_iff.mpr ⟨⟨west, east⟩, south, north⟩)
  rcases beside with west | east | south | north
  · refine each (above p) fun a isA b isB => Segment.winding?_of_left ⟨?_, ?_⟩
    · exact west.trans_le (within a isA).1.1
    · exact west.trans_le (within b isB).1.1
  · refine each (fun _ => 0) fun a isA b isB => Segment.winding?_of_right ⟨?_, ?_⟩
    · exact (within a isA).1.2.trans_lt east
    · exact (within b isB).1.2.trans_lt east
  · refine each (fun _ => 0) fun a isA b isB => Segment.winding?_of_below ⟨?_, ?_⟩
    · exact south.trans_le (within a isA).2.1
    · exact south.trans_le (within b isB).2.1
  · refine each (fun _ => 0) fun a isA b isB => Segment.winding?_of_above ⟨?_, ?_⟩
    · exact (within a isA).2.2.trans_lt north
    · exact (within b isB).2.2.trans_lt north

/-- What a ring winds around lies in every box that holds the vertices of the ring. -/
theorem holds_of_ringPosition {ring : List (Coord K)} {bounds : Bounds K}
    (held : ∀ vertex ∈ ring, bounds.holds vertex = true) (closed : isClosed ring = true)
    (inside : ringPosition ring p = .inside) : bounds.holds p = true := by
  by_contra outside
  have outside := Bool.eq_false_iff.mpr outside
  match ring, inside with
  | first :: second :: rest, inside =>
      simp only [ringPosition, winding?_of_outside held closed outside] at inside
      contradiction
  | [vertex], inside =>
      simp only [ringPosition] at inside
      split at inside <;> contradiction

end Winding

/-! ## Places and their boxes -/

theorem Polygon.ringPosition_of_contains {S : Type} [Scalar S] {polygon : Polygon (Coord S)}
    {p : Coord S} (contains : polygon.contains p = true) :
    ringPosition polygon.exterior p = .inside := by
  have inside : polygon.position p = .inside := by
    simpa [Polygon.contains] using contains
  unfold position at inside
  split at inside
  · assumption
  · exact inside

instance {κ : Type} [BEq κ] (geometry : Geometry κ) : Decidable geometry.IsClosed :=
  match geometry with
  | .point _ => isTrue trivial
  | .line _ => isTrue trivial
  | .area polygons =>
    inferInstanceAs (Decidable
      (∀ polygon ∈ polygons, ∀ ring ∈ polygon.rings, isClosed ring = true))

/-- An area whose rings are closed holds only points that the box around it holds. -/
theorem Place.holds_of_contains [IsStrictOrderedRing K] {place : Place K}
    (derived : place.geometry.bounds? = some place.bounds) (closed : place.geometry.IsClosed)
    {p : Coord K} (contains : place.contains p = true) :
    place.bounds.ordered.holds p = true := by
  unfold Place.contains at contains
  split at contains
  · rename_i polygons shape
    rw [shape] at derived closed
    obtain ⟨polygon, member, holds⟩ := List.any_eq_true.mp contains
    have held : ∀ vertex ∈ polygon.exterior, place.bounds.holds vertex = true :=
      fun vertex isVertex => Bounds.around?_holds derived
        (List.mem_flatMap.mpr ⟨polygon, member, isVertex⟩)
    exact Bounds.ordered_holds <| holds_of_ringPosition held
      (closed polygon member polygon.exterior List.mem_cons_self)
      (Polygon.ringPosition_of_contains holds)
  · contradiction

end Gazetteer
