import Gazetteer.Plane.Scalar

/-!
# Centroids

The balance point of a shape.  The parts of a shape are put on a balance: points with
weight one, segments weighted by length, regions weighted by area.  Only the parts of the
highest dimension count, so a point never moves the centroid of a line, nor a line that
of a region.
-/

namespace Gazetteer

/-- What has been put on the balance: the highest dimension so far, the weight of the
parts that have it, and the sum of their centroids times their weights. -/
structure Balance (K : Type) where
  dimension : Nat
  weight : K
  moment : Coord K
deriving Repr

namespace Balance

variable {K : Type} [Scalar K]

/-- A single part. -/
def part (dimension : Nat) (centroid : Coord K) (weight : K) : Balance K :=
  ⟨dimension, weight, centroid.scale weight⟩

/-- Put on what is in the second pan. -/
def add (first second : Balance K) : Balance K :=
  if first.dimension < second.dimension then second
  else if second.dimension < first.dimension then first
  else ⟨first.dimension, first.weight + second.weight, first.moment + second.moment⟩

/-- Take off what is in the second pan; one of a higher dimension replaces the first. -/
def remove (first second : Balance K) : Balance K :=
  if first.dimension < second.dimension then second
  else if second.dimension < first.dimension then first
  else ⟨first.dimension, first.weight - second.weight, first.moment - second.moment⟩

/-- The balance point. -/
def centroid (balance : Balance K) : Coord K :=
  balance.moment.shrink balance.weight

/-- Put a part on a balance that may be empty. -/
def put (balance : Option (Balance K)) (other : Balance K) : Option (Balance K) :=
  match balance with
  | none => some other
  | some balance => some (balance.add other)

/-- Put on a segment: its middle weighted by its length, or its one point. -/
def putSegment (balance : Option (Balance K)) (segment : Segment (Coord K)) :
    Option (Balance K) :=
  let a := segment.start
  let b := segment.stop
  if a == b then put balance (part 0 a (1.0 : K))
  else put balance (part 1 ((a + b).shrink (2.0 : K)) (Scalar.hypot (b.x - a.x) (b.y - a.y)))

/-- Put on a line.  It is not even looked at once a region lies on the balance. -/
def putLine (balance : Option (Balance K)) (vertices : List (Coord K)) : Option (Balance K) :=
  if balance.any fun balance => 1 < balance.dimension then balance
  else
    match vertices with
    | [vertex] => put balance (part 0 vertex (1.0 : K))
    | vertices => (segments vertices).foldl putSegment balance

/-- The cross product of two arms. -/
def cross (p q : Coord K) : K :=
  p.x * q.y - p.y * q.x

/-- Twice the signed area of a ring, with arms taken from its first vertex. -/
def doubleArea (ring : List (Coord K)) (origin : Coord K) : K :=
  (segments ring).foldl (fun sum s => sum + cross (s.start - origin) (s.stop - origin)) 0

/-- Put on a ring: the region inside it, or the line around it if that has no area.  A
ring all of whose vertices are one point is that point, and one that is not closed has no
area. -/
def putRing (balance : Option (Balance K)) (ring : List (Coord K)) : Option (Balance K) :=
  match ring with
  | [] => balance
  | origin :: _ =>
    let area := if isClosed ring then doubleArea ring origin / (2.0 : K) else 0
    if area == 0 then
      if ring.all (· == origin) then put balance (part 0 origin (1.0 : K))
      else putLine balance ring
    else
      let moment := (segments ring).foldl (fun sum s =>
        let a := s.start - origin
        let b := s.stop - origin
        sum + (b + a).scale (cross a b)) (0 : Coord K)
      let centroid := moment.shrink ((6.0 : K) * area) + origin
      put balance (part 2 centroid (Scalar.abs area))

/-- Put on a polygon: its outline less its holes.  If the holes leave nothing, the line
around it is put on. -/
def putPolygon (balance : Option (Balance K)) (polygon : Polygon (Coord K)) :
    Option (Balance K) :=
  match putRing none polygon.exterior, polygon.interiors.foldl putRing none with
  | none, _ => balance
  | some outline, none => put balance outline
  | some outline, some holes =>
    let region := outline.remove holes
    if region.weight == 0 then putLine balance polygon.exterior else put balance region

end Balance

/-- The centroid of a shape; none for a shape without vertices. -/
def Geometry.centroid? {K : Type} [Scalar K] : Geometry (Coord K) → Option (Coord K)
  | .point p => some p
  | .line vertices => (Balance.putLine none vertices).map Balance.centroid
  | .area polygons => (polygons.foldl Balance.putPolygon none).map Balance.centroid

end Gazetteer
