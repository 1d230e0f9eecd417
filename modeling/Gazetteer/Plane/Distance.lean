import Gazetteer.Plane.Containment

/-!
# Distances

The distance from a point to the nearest point of a shape, in degrees of the plane: a
degree of longitude counts the same at every latitude.  The distance to an area is zero
inside it.
-/

namespace Gazetteer

variable {K : Type} [Scalar K]

namespace Coord

/-- The distance between two points. -/
def distance (p q : Coord K) : K :=
  Scalar.hypot (q.x - p.x) (q.y - p.y)

end Coord

namespace Segment

/-- The distance from a point to a segment.  The foot of the perpendicular is at the
fraction `r` of the way; outside the segment the nearer end counts. -/
def distance (segment : Segment (Coord K)) (p : Coord K) : K :=
  let a := segment.start
  let b := segment.stop
  if a == b then p.distance a
  else
    let dx := b.x - a.x
    let dy := b.y - a.y
    let square := dx * dx + dy * dy
    let r := ((p.x - a.x) * dx + (p.y - a.y) * dy) / square
    if r ≤ 0 then p.distance a
    else if (1.0 : K) ≤ r then p.distance b
    else
      let s := ((a.y - p.y) * dx - (a.x - p.x) * dy) / square
      Scalar.abs s * Scalar.hypot dx dy

/-- Whether a point is on a segment as far as the two fractions of the way, along `x` and
along `y`, can tell: they agree up to `2 ^ (-52)` and lie between the ends. -/
def passes (segment : Segment (Coord K)) (p : Coord K) : Bool :=
  let a := segment.start
  let dx := segment.stop.x - a.x
  let dy := segment.stop.y - a.y
  let within (t : K) : Bool := (0 : K) ≤ t && t ≤ (1.0 : K)
  if dx == 0 then
    if dy == 0 then p == a
    else p.x == a.x && within ((p.y - a.y) / dy)
  else if dy == 0 then p.y == a.y && within ((p.x - a.x) / dx)
  else
    let tx := (p.x - a.x) / dx
    let ty := (p.y - a.y) / dy
    Scalar.abs (tx - ty) ≤ (2.220446049250313080847263336181640625e-16 : K) && within tx

end Segment

/-- The smallest of some distances, `Scalar.farthest` if there are none. -/
def nearestOf (distances : List K) : K :=
  distances.foldl Scalar.least Scalar.farthest

/-- Whether a point is on a line.  A line of one vertex has the points within
`2 ^ (-23) + 2 ^ (-47)` of it: those whose distance rounds to at most `2 ^ (-23)` in single
precision. -/
def onLine (vertices : List (Coord K)) (p : Coord K) : Bool :=
  match vertices with
  | [] => false
  | [vertex] => vertex.distance p ≤ (1.1920929665620860760100185871124267578125e-7 : K)
  | vertices => vertices.any (· == p) || (segments vertices).any fun s => s.passes p

/-- The distance from a point to a line; zero for a line without vertices. -/
def lineDistance (vertices : List (Coord K)) (p : Coord K) : K :=
  if vertices.isEmpty || onLine vertices p then 0
  else nearestOf ((segments vertices).map fun s => s.distance p)

namespace Polygon

/-- The distance from a point to a polygon; zero if it has no outline. -/
def distance (polygon : Polygon (Coord K)) (p : Coord K) : K :=
  if polygon.exterior.isEmpty || polygon.touches p then 0
  else
    nearestOf ((polygon.interiors.map fun hole => lineDistance hole p) ++
      (segments polygon.exterior).map fun s => s.distance p)

end Polygon

/-- The distance from a point to a shape. -/
def Geometry.distance (p : Coord K) : Geometry (Coord K) → K
  | .point q => q.distance p
  | .line vertices => lineDistance vertices p
  | .area polygons =>
    if areaContains polygons p then 0
    else nearestOf (polygons.map fun polygon => polygon.distance p)

end Gazetteer
