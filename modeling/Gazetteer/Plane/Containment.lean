import Gazetteer.Plane.Bounds

/-!
# What lies where

Where a point stands to a ring, a polygon and an area, and which segments and polygons
meet.  Everything is decided by turns and comparisons, so nothing is lost to rounding.

A point is inside a ring when the ring winds around it, in either direction and any
number of times.  A polygon holds what is strictly inside its outline and neither inside
a hole nor on the edge of one; an area holds what one of its polygons holds.
-/

namespace Gazetteer

/-- Where a point stands to a closed region. -/
inductive Position where
  | inside
  | boundary
  | outside
deriving DecidableEq, Repr

variable {K : Type} [Scalar K]

namespace Segment

/-- Whether a point lies on a segment, ends included. -/
def holds (segment : Segment (Coord K)) (p : Coord K) : Bool :=
  Scalar.turn segment.start segment.stop p == .straight &&
    p.inCorners segment.start segment.stop

/-- Whether two segments have a point in common.  If the ends of each lie on different
sides of the other they cross; if all four ends lie on one line they meet when an end
of one is on the other. -/
def meets (first second : Segment (Coord K)) : Bool :=
  if first.start == first.stop then second.holds first.start
  else
    let turnStart := Scalar.turn first.start first.stop second.start
    let turnStop := Scalar.turn first.start first.stop second.stop
    if turnStart ≠ turnStop then
      Scalar.turn second.start second.stop first.start !=
        Scalar.turn second.start second.stop first.stop
    else if turnStart = .straight then
      second.start.inCorners first.start first.stop ||
        second.stop.inCorners first.start first.stop ||
        first.stop.inCorners second.start second.stop
    else false

/-- How often the ray from a point to the right is crossed by a segment, counted positive
upwards and negative downwards; nothing when the point is on the segment.  An upward
segment has its start and not its end, a downward one its end and not its start. -/
def winding? (p : Coord K) (segment : Segment (Coord K)) : Option Int :=
  let turn := Scalar.turn segment.start segment.stop p
  let onEdge := turn == .straight && Scalar.between p.x segment.start.x segment.stop.x
  if segment.start.y ≤ p.y then
    if p.y ≤ segment.stop.y then
      if turn == .left && segment.stop.y != p.y then some 1
      else if onEdge then none
      else some 0
    else some 0
  else if segment.stop.y ≤ p.y then
    if turn == .right then some (-1)
    else if onEdge then none
    else some 0
  else some 0

end Segment

/-- The number of times that segments wind around a point; nothing when the point is on
one of them. -/
def winding? (p : Coord K) : List (Segment (Coord K)) → Option Int
  | [] => some 0
  | segment :: rest => do
    let here ← segment.winding? p
    let others ← winding? p rest
    some (here + others)

/-- Where a point stands to a ring.  A ring of one vertex has that vertex as its edge and
no inside. -/
def ringPosition (ring : List (Coord K)) (p : Coord K) : Position :=
  match ring with
  | [] => .outside
  | [vertex] => if p == vertex then .boundary else .outside
  | ring =>
    match winding? p (segments ring) with
    | none => .boundary
    | some 0 => .outside
    | some _ => .inside

/-- Where a point that is inside the outline stands to a polygon with these holes. -/
def holesPosition (p : Coord K) : List (List (Coord K)) → Position
  | [] => .inside
  | hole :: rest =>
    match ringPosition hole p with
    | .outside => holesPosition p rest
    | .boundary => .boundary
    | .inside => .outside

namespace Polygon

/-- Where a point stands to a polygon. -/
def position (polygon : Polygon (Coord K)) (p : Coord K) : Position :=
  match ringPosition polygon.exterior p with
  | .inside => holesPosition p polygon.interiors
  | other => other

/-- Whether a polygon holds a point. -/
def contains (polygon : Polygon (Coord K)) (p : Coord K) : Bool :=
  polygon.position p == .inside

/-- Whether a point is inside a polygon or on an edge of it. -/
def touches (polygon : Polygon (Coord K)) (p : Coord K) : Bool :=
  polygon.position p != .outside

end Polygon

/-- Whether an area holds a point. -/
def areaContains (polygons : List (Polygon (Coord K))) (p : Coord K) : Bool :=
  polygons.any fun polygon => polygon.contains p

/-- Whether two lists of vertices have segments that meet. -/
def linesMeet (first second : List (Coord K)) : Bool :=
  (segments first).any fun a => (segments second).any fun b => a.meets b

namespace Polygon

/-- Whether two polygons have a point in common. -/
def meets (first second : Polygon (Coord K)) : Bool :=
  (first.exterior.head?.any fun p => second.touches p) ||
    (second.exterior.head?.any fun p => first.touches p) ||
    linesMeet first.exterior second.exterior ||
    (first.interiors.any fun hole => linesMeet hole second.exterior) ||
    (second.interiors.any fun hole => linesMeet hole first.exterior)

/-- Whether two polygons that have an outline overlap or touch. -/
def overlaps (first second : Polygon (Coord K)) : Bool :=
  match first.bounds?, second.bounds? with
  | some a, some b => a.meets b && first.meets second
  | _, _ => false

end Polygon

end Gazetteer
