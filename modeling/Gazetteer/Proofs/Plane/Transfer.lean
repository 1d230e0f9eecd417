import Gazetteer.Proofs.Plane.ExactValue
import Gazetteer.Proofs.Plane.Winding

/-!
# From finite numbers to their exact values

Where a point stands to a ring and to a box is decided by comparing coordinates and by the turns
from the sides of the ring to the point.  Finite numbers compare as their exact values do, so
if the turns are those of the exact values too, so is the decision.  What holds of rings and
boxes with exact numbers then holds of them in binary64.
-/

namespace Gazetteer

open Binary64

/-! ## Points -/

namespace Coord

/-- Both coordinates are finite. -/
def IsFinite (p : Coord Float) : Prop :=
  p.x.isFinite = true ∧ p.y.isFinite = true

instance (p : Coord Float) : Decidable p.IsFinite :=
  inferInstanceAs (Decidable (_ ∧ _))

/-- The point whose coordinates are the exact values. -/
def value (p : Coord Float) : Coord ℚ :=
  ⟨Binary64.value p.x, Binary64.value p.y⟩

theorem beq_value {p q : Coord Float} (finite : p.IsFinite) (alsoFinite : q.IsFinite) :
    (p.value == q.value) = (p == q) := by
  change (Binary64.value p.x == Binary64.value q.x && Binary64.value p.y == Binary64.value q.y) =
    (p.x == q.x && p.y == q.y)
  rw [Binary64.beq_value finite.1 alsoFinite.1, Binary64.beq_value finite.2 alsoFinite.2]

end Coord

namespace Scalar

theorem between_value {number bound other : Float} (finite : number.isFinite = true)
    (isBound : bound.isFinite = true) (isOther : other.isFinite = true) :
    between (Binary64.value number) (Binary64.value bound) (Binary64.value other) =
      between number bound other := by
  simp only [between, lt_iff_value_lt isBound isOther, le_iff_value_le isBound finite,
    le_iff_value_le finite isOther, le_iff_value_le isOther finite, le_iff_value_le finite isBound]

theorem least_value {first second : Float} (isFirst : first.isFinite = true)
    (isSecond : second.isFinite = true) :
    least (Binary64.value first) (Binary64.value second) = Binary64.value (least first second) ∧
      (least first second).isFinite = true := by
  simp only [least, lt_iff_value_lt isSecond isFirst]
  split
  · exact ⟨rfl, isSecond⟩
  · exact ⟨rfl, isFirst⟩

theorem greatest_value {first second : Float} (isFirst : first.isFinite = true)
    (isSecond : second.isFinite = true) :
    greatest (Binary64.value first) (Binary64.value second) =
        Binary64.value (greatest first second) ∧
      (greatest first second).isFinite = true := by
  simp only [greatest, lt_iff_value_lt isFirst isSecond]
  split
  · exact ⟨rfl, isSecond⟩
  · exact ⟨rfl, isFirst⟩

end Scalar

/-! ## Rings -/

namespace Segment

/-- The segment between the exact values of the ends. -/
def value (segment : Segment (Coord Float)) : Segment (Coord ℚ) :=
  ⟨segment.start.value, segment.stop.value⟩

/-- The path along a segment and on to a point turns as that through the exact values does. -/
def TurnsExactly (p : Coord Float) (segment : Segment (Coord Float)) : Prop :=
  Scalar.turn segment.start segment.stop p =
    Scalar.turn segment.start.value segment.stop.value p.value

instance (p : Coord Float) (segment : Segment (Coord Float)) : Decidable (segment.TurnsExactly p) :=
  inferInstanceAs (Decidable (_ = _))

theorem winding?_value {p : Coord Float} {segment : Segment (Coord Float)} (finite : p.IsFinite)
    (start : segment.start.IsFinite) (stop : segment.stop.IsFinite)
    (exactly : segment.TurnsExactly p) :
    segment.value.winding? p.value = segment.winding? p := by
  simp only [winding?, value, Coord.value, Scalar.between_value finite.1 start.1 stop.1,
    le_iff_value_le start.2 finite.2, le_iff_value_le finite.2 stop.2,
    le_iff_value_le stop.2 finite.2, bne, Binary64.beq_value stop.2 finite.2]
  rw [exactly]
  rfl

end Segment

theorem segments_map {κ μ : Type} (f : κ → μ) (vertices : List κ) :
    segments (vertices.map f) =
      (segments vertices).map fun segment => ⟨f segment.start, f segment.stop⟩ := by
  induction vertices with
  | nil => rfl
  | cons first rest ih =>
      cases rest with
      | nil => rfl
      | cons second rest => exact congrArg (_ :: ·) ih

section Rings

variable {p : Coord Float} {ring : List (Coord Float)}

theorem winding?_value (finite : p.IsFinite) {sides : List (Segment (Coord Float))}
    (ends : ∀ side ∈ sides, side.start.IsFinite ∧ side.stop.IsFinite)
    (exactly : ∀ side ∈ sides, side.TurnsExactly p) :
    winding? p.value (sides.map Segment.value) = winding? p sides := by
  induction sides with
  | nil => rfl
  | cons side rest ih =>
      obtain ⟨here, others⟩ := List.forall_mem_cons.mp ends
      obtain ⟨exactHere, exactOthers⟩ := List.forall_mem_cons.mp exactly
      rw [List.map_cons, winding?, winding?, ih others exactOthers,
        Segment.winding?_value finite here.1 here.2 exactHere]

/-- A point stands to a ring as its exact value stands to the ring of the exact values. -/
theorem ringPosition_value (finite : p.IsFinite) (vertices : ∀ vertex ∈ ring, vertex.IsFinite)
    (exactly : ∀ side ∈ segments ring, side.TurnsExactly p) :
    ringPosition (ring.map Coord.value) p.value = ringPosition ring p := by
  match ring with
  | [] => rfl
  | [vertex] =>
      simp only [List.map_cons, List.map_nil, ringPosition,
        Coord.beq_value finite (vertices vertex List.mem_cons_self)]
  | first :: second :: rest =>
      have ends : ∀ side ∈ segments (first :: second :: rest),
          side.start.IsFinite ∧ side.stop.IsFinite := by
        intro side member
        obtain ⟨starts, stops⟩ := mem_of_mem_segments member
        exact ⟨vertices _ starts, vertices _ stops⟩
      have winds := winding?_value finite ends exactly
      rw [show (segments (first :: second :: rest)).map Segment.value =
        segments ((first :: second :: rest).map Coord.value) from
          (segments_map Coord.value _).symm] at winds
      simp only [List.map_cons] at winds ⊢
      simp only [ringPosition, winds]

theorem isClosed_value (vertices : ∀ vertex ∈ ring, vertex.IsFinite) :
    isClosed (ring.map Coord.value) = isClosed ring := by
  cases ring with
  | nil => rfl
  | cons first rest =>
      have last := List.getLast?_eq_some_getLast (List.cons_ne_nil first rest)
      simp only [isClosed, List.head?_map, List.getLast?_map, last, List.head?_cons,
        Option.map_some]
      exact Coord.beq_value (vertices _ List.mem_cons_self) (vertices _ (List.getLast_mem _))

end Rings

/-! ## Boxes -/

namespace Bounds

/-- The box with the exact values as its sides. -/
def value (bounds : Bounds Float) : Bounds ℚ :=
  ⟨Binary64.value bounds.minLon, Binary64.value bounds.minLat,
    Binary64.value bounds.maxLon, Binary64.value bounds.maxLat⟩

/-- All four sides are finite. -/
structure IsFinite (bounds : Bounds Float) : Prop where
  minLon : bounds.minLon.isFinite = true
  minLat : bounds.minLat.isFinite = true
  maxLon : bounds.maxLon.isFinite = true
  maxLat : bounds.maxLat.isFinite = true

variable {bounds : Bounds Float} {vertices : List (Coord Float)}

theorem holds_value (sides : bounds.IsFinite) {p : Coord Float} (finite : p.IsFinite) :
    bounds.value.holds p.value = bounds.holds p := by
  rw [Bool.eq_iff_iff, holds_iff]
  simp only [holds, value, Coord.value, Bool.and_eq_true, decide_eq_true_eq, and_assoc,
    le_iff_value_le sides.minLon finite.1, le_iff_value_le finite.1 sides.maxLon,
    le_iff_value_le sides.minLat finite.2, le_iff_value_le finite.2 sides.maxLat]

theorem ordered_value (sides : bounds.IsFinite) :
    bounds.value.ordered = bounds.ordered.value ∧ bounds.ordered.IsFinite := by
  obtain ⟨west, westFinite⟩ := Scalar.least_value sides.maxLon sides.minLon
  obtain ⟨south, southFinite⟩ := Scalar.least_value sides.maxLat sides.minLat
  obtain ⟨east, eastFinite⟩ := Scalar.greatest_value sides.maxLon sides.minLon
  obtain ⟨north, northFinite⟩ := Scalar.greatest_value sides.maxLat sides.minLat
  refine ⟨?_, westFinite, southFinite, eastFinite, northFinite⟩
  simp only [ordered, value, west, south, east, north]

theorem stretch_value {low high number : Float} (isLow : low.isFinite = true)
    (isHigh : high.isFinite = true) (finite : number.isFinite = true) :
    stretch (Binary64.value low, Binary64.value high) (Binary64.value number) =
        (Binary64.value (stretch (low, high) number).1,
          Binary64.value (stretch (low, high) number).2) ∧
      (stretch (low, high) number).1.isFinite = true ∧
      (stretch (low, high) number).2.isFinite = true := by
  simp only [stretch, lt_iff_value_lt isHigh finite, lt_iff_value_lt finite isLow]
  split
  · exact ⟨rfl, isLow, finite⟩
  · split
    · exact ⟨rfl, finite, isHigh⟩
    · exact ⟨rfl, isLow, isHigh⟩

theorem widen_value (sides : bounds.IsFinite) {p : Coord Float} (finite : p.IsFinite) :
    bounds.value.widen p.value = (bounds.widen p).value ∧ (bounds.widen p).IsFinite := by
  obtain ⟨lon, west, east⟩ := stretch_value sides.minLon sides.maxLon finite.1
  obtain ⟨lat, south, north⟩ := stretch_value sides.minLat sides.maxLat finite.2
  refine ⟨?_, west, south, east, north⟩
  simp only [widen, value, Coord.value, lon, lat]

theorem foldl_widen_value (sides : bounds.IsFinite)
    (finite : ∀ vertex ∈ vertices, vertex.IsFinite) :
    (vertices.map Coord.value).foldl widen bounds.value = (vertices.foldl widen bounds).value ∧
      (vertices.foldl widen bounds).IsFinite := by
  induction vertices generalizing bounds with
  | nil => exact ⟨rfl, sides⟩
  | cons vertex rest ih =>
      obtain ⟨here, others⟩ := List.forall_mem_cons.mp finite
      obtain ⟨same, wider⟩ := widen_value sides here
      rw [List.map_cons, List.foldl_cons, List.foldl_cons, same]
      exact ih wider others

/-- The box around finite points is the box around their exact values. -/
theorem around?_value (finite : ∀ vertex ∈ vertices, vertex.IsFinite)
    (around : around? vertices = some bounds) :
    around? (vertices.map Coord.value) = some bounds.value ∧ bounds.IsFinite := by
  cases vertices with
  | nil => contradiction
  | cons first rest =>
      obtain rfl := Option.some.inj around
      obtain ⟨here, others⟩ := List.forall_mem_cons.mp finite
      have only : (ofPoint first).IsFinite := ⟨here.1, here.2, here.1, here.2⟩
      obtain ⟨same, sides⟩ := foldl_widen_value only others
      exact ⟨congrArg some same, sides⟩

end Bounds

end Gazetteer
