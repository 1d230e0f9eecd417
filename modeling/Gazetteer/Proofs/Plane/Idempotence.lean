import Gazetteer.Plane.Simplify
import Gazetteer.Proofs.Plane.Recursion

/-!
# Simplifying twice

Simplifying a shape again at the same tolerance changes nothing.  Thinning splits at the same
vertices again.  A ring, a polygon or an area that falls back is what it was before; one that
does not is made of parts that stay as they are, so it stays as it is whether or not it falls
back the second time.  Nothing is needed of the measurements of the plane.
-/

namespace Gazetteer

/-! ## Lines -/

namespace Simplify

variable {κ δ : Type} [Zero δ] [LT δ] [DecidableLT δ] {tolerance : δ}

/-- Thinning a list that has been thinned is thinning it once, at the greater tolerance. -/
theorem thin_thin [FloatingOrder δ] {second : δ} (positive : 0 < tolerance)
    (secondPositive : 0 < second) (deviation : Segment κ → κ → δ) (vertices : List κ) :
    thin deviation second (thin deviation tolerance vertices) =
      thin deviation (if tolerance < second then second else tolerance) vertices := by
  rcases exists_ends vertices with rfl | ⟨vertex, rfl⟩ | ⟨first, interior, last, rfl⟩
  · rfl
  · rw [thin_singleton, thin_singleton, thin_singleton]
  · have greaterPositive : 0 < if tolerance < second then second else tolerance := by
      split <;> assumption
    rw [thin_eq_thinBetween positive, thin_eq_thinBetween secondPositive,
      thin_eq_thinBetween greaterPositive, thinBetween_thinBetween positive secondPositive]

theorem thin_again [FloatingOrder δ] (positive : 0 < tolerance) (deviation : Segment κ → κ → δ)
    (vertices : List κ) :
    thin deviation tolerance (thin deviation tolerance vertices) =
      thin deviation tolerance vertices := by
  rw [thin_thin positive positive, if_neg (FloatingOrder.irrefl tolerance)]

/-- Thinning a closed list leaves it closed, because it keeps both ends. -/
theorem isClosed_thin [BEq κ] (deviation : Segment κ → κ → δ) (tolerance : δ)
    (vertices : List κ) : isClosed (thin deviation tolerance vertices) = isClosed vertices := by
  rw [isClosed, head?_thin, getLast?_thin, isClosed]

/-- Two vertices are the fewest that thinning keeps. -/
theorem thin_of_length_le [FloatingOrder δ] (positive : 0 < tolerance)
    (deviation : Segment κ → κ → δ) {vertices : List κ} (short : vertices.length ≤ 2) :
    thin deviation tolerance vertices = vertices := by
  rcases exists_ends vertices with rfl | ⟨vertex, rfl⟩ | ⟨first, interior, last, rfl⟩
  · rfl
  · exact thin_singleton vertex
  · have empty : interior = [] := by
      rw [← List.length_eq_zero_iff]
      simpa using short
    rw [thin_eq_thinBetween positive, empty, thinBetween_nil]

end Simplify

/-! ## Closed shapes -/

section Closed

variable {κ : Type} [BEq κ]

/-- All rings are closed. -/
def Polygon.IsClosed (polygon : Polygon κ) : Prop :=
  ∀ ring ∈ polygon.rings, isClosed ring = true

/-- All rings of an area are closed. -/
def Geometry.IsClosed : Geometry κ → Prop
  | .area polygons => ∀ polygon ∈ polygons, polygon.IsClosed
  | _ => True

/-- Closing the rings of a polygon makes them closed, where every vertex is equal to itself,
that is, where no coordinate is undefined. -/
theorem Polygon.isClosed_closing {exterior : List κ} {interiors : List (List κ)}
    (defined : ∀ ring ∈ exterior :: interiors, ∀ vertex ∈ ring, (vertex == vertex) = true) :
    (Polygon.closing exterior interiors).IsClosed := by
  intro ring member
  rcases List.mem_cons.mp member with rfl | isHole
  · exact isClosed_closeRing (defined exterior List.mem_cons_self)
  · obtain ⟨hole, among, rfl⟩ := List.mem_map.mp isHole
    exact isClosed_closeRing (defined hole (List.mem_cons_of_mem _ among))

theorem Polygon.closing_of_isClosed {exterior : List κ} {interiors : List (List κ)}
    (closed : (Polygon.mk exterior interiors).IsClosed) :
    Polygon.closing exterior interiors = ⟨exterior, interiors⟩ := by
  have left : closeRing exterior = exterior :=
    closeRing_of_isClosed (closed exterior List.mem_cons_self)
  have right : interiors.map closeRing = interiors.map id :=
    List.map_congr_left fun ring member =>
      closeRing_of_isClosed (closed ring (List.mem_cons_of_mem _ member))
  rw [closing, left, right, List.map_id]

end Closed

namespace Gauge

variable {κ δ : Type} [Zero δ] [LT δ] [DecidableLT δ] {tolerance : δ}

theorem simplifyLine_eq_thin [FloatingOrder δ] (gauge : Gauge κ δ) (positive : 0 < tolerance)
    (vertices : List κ) :
    gauge.simplifyLine tolerance vertices = gauge.thin tolerance vertices := by
  unfold simplifyLine
  split
  · rename_i short
    exact (Simplify.thin_of_length_le positive gauge.deviation short).symm
  · rfl

theorem simplifyLine_again [FloatingOrder δ] (gauge : Gauge κ δ) (positive : 0 < tolerance)
    (vertices : List κ) :
    gauge.simplifyLine tolerance (gauge.simplifyLine tolerance vertices) =
      gauge.simplifyLine tolerance vertices := by
  rw [simplifyLine_eq_thin gauge positive, simplifyLine_eq_thin gauge positive]
  exact Simplify.thin_again positive gauge.deviation vertices

/-! ## Falling back -/

/-- Where each time either nothing is done or an improvement is made that cannot be made
twice, the second time changes nothing. -/
theorem again_of_eq_or {α : Type} {simplified improved : α → α} {original : α}
    (once : simplified original = original ∨ simplified original = improved original)
    (twice : simplified (improved original) = improved original ∨
      simplified (improved original) = improved (improved original))
    (same : improved (improved original) = improved original) :
    simplified (simplified original) = simplified original := by
  rcases once with back | better
  · rw [back, back]
  · rw [better]
    rcases twice with stays | again
    · exact stays
    · rw [again, same]

variable [BEq κ]

/-- A simplified ring that is not what it was has been thinned, has four vertices or more and
does not meet itself. -/
theorem simplifyRing_cases (gauge : Gauge κ δ) (tolerance : δ) (ring : List κ) :
    gauge.simplifyRing tolerance ring = ring ∨
      gauge.simplifyRing tolerance ring = gauge.thin tolerance ring ∧ 4 < ring.length ∧
        4 ≤ (gauge.thin tolerance ring).length ∧
          gauge.meetsItself (gauge.thin tolerance ring) = false := by
  dsimp only [simplifyRing]
  split
  · exact Or.inl rfl
  · rename_i long
    split
    · exact Or.inl rfl
    · rename_i kept
      right
      simp only [Bool.or_eq_true, decide_eq_true_eq, not_or, Nat.not_lt, Nat.not_le,
        Bool.not_eq_true] at long kept
      exact ⟨rfl, long.1, kept⟩

theorem simplifyRing_eq_or (gauge : Gauge κ δ) (tolerance : δ) (ring : List κ) :
    gauge.simplifyRing tolerance ring = ring ∨
      gauge.simplifyRing tolerance ring = gauge.thin tolerance ring :=
  (simplifyRing_cases gauge tolerance ring).imp_right And.left

theorem head?_simplifyRing (gauge : Gauge κ δ) (tolerance : δ) (ring : List κ) :
    (gauge.simplifyRing tolerance ring).head? = ring.head? := by
  rcases simplifyRing_eq_or gauge tolerance ring with back | thinned
  · rw [back]
  · rw [thinned]
    exact Simplify.head?_thin gauge.deviation tolerance ring

theorem isClosed_simplifyRing (gauge : Gauge κ δ) (tolerance : δ) (ring : List κ) :
    isClosed (gauge.simplifyRing tolerance ring) = isClosed ring := by
  rcases simplifyRing_eq_or gauge tolerance ring with back | thinned
  · rw [back]
  · rw [thinned]
    exact Simplify.isClosed_thin gauge.deviation tolerance ring

theorem simplifyRing_again [FloatingOrder δ] (gauge : Gauge κ δ) (positive : 0 < tolerance)
    (ring : List κ) :
    gauge.simplifyRing tolerance (gauge.simplifyRing tolerance ring) =
      gauge.simplifyRing tolerance ring :=
  again_of_eq_or (simplifyRing_eq_or gauge tolerance ring)
    (simplifyRing_eq_or gauge tolerance (gauge.thin tolerance ring))
    (Simplify.thin_again positive gauge.deviation ring)

/-- A polygon with each ring simplified on its own. -/
def simplifyRings (gauge : Gauge κ δ) (tolerance : δ) (polygon : Polygon κ) : Polygon κ :=
  ⟨gauge.simplifyRing tolerance polygon.exterior,
    polygon.interiors.map (gauge.simplifyRing tolerance)⟩

theorem rings_simplifyRings (gauge : Gauge κ δ) (tolerance : δ) (polygon : Polygon κ) :
    (gauge.simplifyRings tolerance polygon).rings =
      polygon.rings.map (gauge.simplifyRing tolerance) :=
  rfl

theorem isClosed_simplifyRings (gauge : Gauge κ δ) (tolerance : δ)
    {polygon : Polygon κ} (closed : polygon.IsClosed) :
    (gauge.simplifyRings tolerance polygon).IsClosed := by
  intro ring member
  rw [rings_simplifyRings] at member
  obtain ⟨original, among, rfl⟩ := List.mem_map.mp member
  rw [isClosed_simplifyRing]
  exact closed original among

theorem simplifyRings_again [FloatingOrder δ] (gauge : Gauge κ δ) (positive : 0 < tolerance)
    (polygon : Polygon κ) :
    gauge.simplifyRings tolerance (gauge.simplifyRings tolerance polygon) =
      gauge.simplifyRings tolerance polygon := by
  have same : gauge.simplifyRing tolerance ∘ gauge.simplifyRing tolerance =
      gauge.simplifyRing tolerance := funext (simplifyRing_again gauge positive)
  simp only [simplifyRings, simplifyRing_again gauge positive, List.map_map, same]

/-- A polygon is simplified ring by ring where that keeps the rings apart. -/
theorem simplifyPolygon_eq_ite (gauge : Gauge κ δ) (tolerance : δ) {polygon : Polygon κ}
    (closed : polygon.IsClosed) :
    gauge.simplifyPolygon tolerance polygon =
      if gauge.keepsApart (gauge.simplifyRings tolerance polygon).exterior
          (gauge.simplifyRings tolerance polygon).interiors then
        gauge.simplifyRings tolerance polygon
      else polygon := by
  have same := Polygon.closing_of_isClosed (isClosed_simplifyRings gauge tolerance closed)
  dsimp only [simplifyPolygon]
  rw [same]
  rfl

theorem simplifyPolygon_eq_or (gauge : Gauge κ δ) (tolerance : δ)
    {polygon : Polygon κ} (closed : polygon.IsClosed) :
    gauge.simplifyPolygon tolerance polygon = polygon ∨
      gauge.simplifyPolygon tolerance polygon = gauge.simplifyRings tolerance polygon := by
  rw [simplifyPolygon_eq_ite gauge tolerance closed]
  split
  · exact Or.inr rfl
  · exact Or.inl rfl

theorem simplifyPolygon_again [FloatingOrder δ] (gauge : Gauge κ δ) (positive : 0 < tolerance)
    {polygon : Polygon κ} (closed : polygon.IsClosed) :
    gauge.simplifyPolygon tolerance (gauge.simplifyPolygon tolerance polygon) =
      gauge.simplifyPolygon tolerance polygon :=
  again_of_eq_or (simplifyPolygon_eq_or gauge tolerance closed)
    (simplifyPolygon_eq_or gauge tolerance (isClosed_simplifyRings gauge tolerance closed))
    (simplifyRings_again gauge positive polygon)

theorem simplifyArea_eq_or (gauge : Gauge κ δ) (tolerance : δ) (polygons : List (Polygon κ)) :
    gauge.simplifyArea tolerance polygons = polygons ∨
      gauge.simplifyArea tolerance polygons =
        polygons.map (gauge.simplifyPolygon tolerance) := by
  unfold simplifyArea
  dsimp only
  split
  · exact Or.inl rfl
  · exact Or.inr rfl

theorem simplifyArea_again [FloatingOrder δ] (gauge : Gauge κ δ) (positive : 0 < tolerance)
    {polygons : List (Polygon κ)} (closed : ∀ polygon ∈ polygons, polygon.IsClosed) :
    gauge.simplifyArea tolerance (gauge.simplifyArea tolerance polygons) =
      gauge.simplifyArea tolerance polygons := by
  apply again_of_eq_or (simplifyArea_eq_or gauge tolerance polygons)
    (simplifyArea_eq_or gauge tolerance _)
  rw [List.map_map]
  exact List.map_congr_left fun polygon member =>
    simplifyPolygon_again gauge positive (closed polygon member)

/-- Simplifying a shape with closed rings twice is simplifying it once. -/
theorem simplify_again [FloatingOrder δ] (gauge : Gauge κ δ) {tolerance : Option δ}
    (positive : ∀ value ∈ tolerance, 0 < value) {geometry : Geometry κ}
    (closed : geometry.IsClosed) :
    gauge.simplify tolerance (gauge.simplify tolerance geometry) =
      gauge.simplify tolerance geometry := by
  cases tolerance with
  | none => rfl
  | some tolerance =>
      have positive : 0 < tolerance := positive tolerance rfl
      cases geometry with
      | point position => rfl
      | line vertices => exact congrArg Geometry.line (simplifyLine_again gauge positive vertices)
      | area polygons => exact congrArg Geometry.area (simplifyArea_again gauge positive closed)

end Gauge

/-! ## Numbers as tolerances -/

theorem pos_of_mem_tolerance? {K : Type} [Scalar K] {number value : K}
    (member : value ∈ tolerance? number) : 0 < value := by
  obtain ⟨valid, same⟩ := Option.ite_none_right_eq_some.mp member
  obtain rfl := Option.some.inj same
  exact of_decide_eq_true (Bool.and_eq_true_iff.mp valid).2

/-- Whatever the measurements of the plane, simplifying a shape with closed rings a second
time at the same tolerance changes nothing, be the tolerance positive, negative or undefined. -/
theorem Gauge.simplify_idempotent (gauge : Gauge (Coord Float) Float) (tolerance : Float)
    (geometry : Geometry (Coord Float)) (closed : geometry.IsClosed) :
    gauge.simplify (tolerance? tolerance) (gauge.simplify (tolerance? tolerance) geometry) =
      gauge.simplify (tolerance? tolerance) geometry :=
  gauge.simplify_again (fun _ member => pos_of_mem_tolerance? member) closed

/-- A square with a shallow notch in one side, and a narrow hole. -/
def notchedSquare : Geometry (Coord Float) :=
  .area [Polygon.closing [⟨0, 0⟩, ⟨1, 0.1⟩, ⟨2, 0⟩, ⟨2, 2⟩, ⟨0, 2⟩]
    [[⟨1, 1⟩, ⟨1.05, 1⟩, ⟨1.1, 1⟩, ⟨1.05, 1.05⟩]]]

theorem Gauge.simplify_idempotent_notchedSquare :
    notchedSquare.IsClosed ∧
      (plane Float).simplify (tolerance? 0.2)
          ((plane Float).simplify (tolerance? 0.2) notchedSquare) =
        (plane Float).simplify (tolerance? 0.2) notchedSquare := by
  have closed : notchedSquare.IsClosed := by
    intro polygon member
    rw [List.mem_singleton.mp member]
    apply Polygon.isClosed_closing
    decide +kernel
  exact ⟨closed, simplify_idempotent (plane Float) 0.2 notchedSquare closed⟩

end Gazetteer
