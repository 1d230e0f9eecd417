import Gazetteer.Plane.Scalar

/-!
# Bounding boxes

The upright box around a shape.  An area is bounded by its outlines alone, since holes
lie inside them.
-/

namespace Gazetteer

/-- An upright box, in degrees. -/
structure Bounds (K : Type) where
  minLon : K
  minLat : K
  maxLon : K
  maxLat : K
deriving BEq, DecidableEq, Repr

namespace Bounds

variable {K : Type} [Scalar K]

/-- The box that holds one point only. -/
def ofPoint (p : Coord K) : Bounds K :=
  ⟨p.x, p.y, p.x, p.y⟩

/-- An interval, stretched to hold a number. -/
def stretch (interval : K × K) (value : K) : K × K :=
  if interval.2 < value then (interval.1, value)
  else if value < interval.1 then (value, interval.2)
  else interval

/-- The box, stretched to hold a point. -/
def widen (bounds : Bounds K) (p : Coord K) : Bounds K :=
  let lon := stretch (bounds.minLon, bounds.maxLon) p.x
  let lat := stretch (bounds.minLat, bounds.maxLat) p.y
  ⟨lon.1, lat.1, lon.2, lat.2⟩

/-- The box around some points; none if there are no points. -/
def around? : List (Coord K) → Option (Bounds K)
  | [] => none
  | p :: rest => some (rest.foldl widen (ofPoint p))

/-- Whether a point lies in the box, edges included. -/
def holds (bounds : Bounds K) (p : Coord K) : Bool :=
  bounds.minLon ≤ p.x && p.x ≤ bounds.maxLon && bounds.minLat ≤ p.y && p.y ≤ bounds.maxLat

/-- The same box with its corners the right way round.  A lower bound that cannot be compared
with the upper one gives way to it. -/
def ordered (bounds : Bounds K) : Bounds K :=
  ⟨Scalar.least bounds.maxLon bounds.minLon, Scalar.least bounds.maxLat bounds.minLat,
    Scalar.greatest bounds.maxLon bounds.minLon, Scalar.greatest bounds.maxLat bounds.minLat⟩

/-- The smallest box that holds two boxes. -/
def join (first second : Bounds K) : Bounds K :=
  ⟨Scalar.least second.minLon first.minLon, Scalar.least second.minLat first.minLat,
    Scalar.greatest second.maxLon first.maxLon, Scalar.greatest second.maxLat first.maxLat⟩

/-- The smallest box that holds some boxes; none if there are no boxes. -/
def hull? : List (Bounds K) → Option (Bounds K)
  | [] => none
  | bounds :: rest => some (rest.foldl join bounds)

/-- The point of a box that is nearest to a point. -/
def nearestPoint (bounds : Bounds K) (p : Coord K) : Coord K :=
  ⟨Scalar.least (Scalar.greatest p.x bounds.minLon) bounds.maxLon,
    Scalar.least (Scalar.greatest p.y bounds.minLat) bounds.maxLat⟩

/-- The square of the distance from a point to a box, zero inside it. -/
def squareTo (bounds : Bounds K) (p : Coord K) : K :=
  if bounds.holds p then 0
  else
    let away := bounds.nearestPoint p - p
    away.x * away.x + away.y * away.y

/-- Whether two boxes have a point in common. -/
def meets (first second : Bounds K) : Bool :=
  !(decide (first.maxLon < second.minLon) || decide (first.maxLat < second.minLat) ||
    decide (second.maxLon < first.minLon) || decide (second.maxLat < first.minLat))

end Bounds

/-- The box around a polygon. -/
def Polygon.bounds? {K : Type} [Scalar K] (polygon : Polygon (Coord K)) : Option (Bounds K) :=
  Bounds.around? polygon.exterior

/-- The box around a shape; none for a shape without vertices. -/
def Geometry.bounds? {K : Type} [Scalar K] : Geometry (Coord K) → Option (Bounds K)
  | .point p => some (Bounds.ofPoint p)
  | .line vertices => Bounds.around? vertices
  | .area polygons => Bounds.around? (polygons.flatMap Polygon.exterior)

end Gazetteer
