import Gazetteer.Plane.Distance
import Gazetteer.Plane.Simplify.Thinning

/-!
# Simplifying a shape

Lines and rings are thinned, and a shape falls back to what it was wherever thinning would
spoil it: a ring that would have fewer than four vertices or meet itself, a polygon whose
rings would meet or whose holes would start outside its outline, an area whose polygons
would meet.  Each is kept whole then, vertices and all.

The rules only need four measurements of the plane, gathered in a `Gauge`; `Gauge.plane`
is the gauge of the scalars in use.
-/

namespace Gazetteer

/-- The measurements that simplification takes. -/
structure Gauge (κ δ : Type) where
  /-- How far a vertex is from a segment. -/
  deviation : Segment κ → κ → δ
  /-- Whether two segments have a point in common. -/
  meets : Segment κ → Segment κ → Bool
  /-- Whether a polygon holds a vertex. -/
  contains : Polygon κ → κ → Bool
  /-- Whether two polygons overlap or touch. -/
  overlaps : Polygon κ → Polygon κ → Bool

/-- Whether two members of a list, the earlier one first, are related. -/
def anyPair {α : Type} (related : α → α → Bool) : List α → Bool
  | [] => false
  | first :: rest => rest.any (related first) || anyPair related rest

namespace Gauge

variable {κ δ : Type} [BEq κ] [Zero δ] [LT δ] [DecidableLT δ]

/-- Thin a list of vertices. -/
def thin (gauge : Gauge κ δ) (tolerance : δ) (vertices : List κ) : List κ :=
  Simplify.thin gauge.deviation tolerance vertices

/-- Simplify a line.  Two vertices are already as few as a line can have. -/
def simplifyLine (gauge : Gauge κ δ) (tolerance : δ) (vertices : List κ) : List κ :=
  if vertices.length ≤ 2 then vertices else gauge.thin tolerance vertices

/-- Whether two segments that are not neighbours meet. -/
def distantMeet (gauge : Gauge κ δ) : List (Segment κ) → Bool
  | [] => false
  | first :: rest => (rest.drop 1).any (gauge.meets first) || gauge.distantMeet rest

/-- Whether a closed ring meets itself away from the vertices that neighbours share.  The
first and the last segment are neighbours too. -/
def meetsItself (gauge : Gauge κ δ) (ring : List κ) : Bool :=
  match segments ring with
  | [] => false
  | first :: rest =>
    ((rest.drop 1).dropLast).any (gauge.meets first) || gauge.distantMeet rest

/-- Simplify a ring.  Four vertices, the last repeating the first, are already as few as a
ring can have. -/
def simplifyRing (gauge : Gauge κ δ) (tolerance : δ) (ring : List κ) : List κ :=
  if ring.length ≤ 4 || !isClosed ring then ring
  else
    let thinned := gauge.thin tolerance ring
    if thinned.length < 4 || gauge.meetsItself thinned then ring else thinned

/-- Whether two rings meet. -/
def ringsMeet (gauge : Gauge κ δ) (first second : List κ) : Bool :=
  (segments first).any fun a => (segments second).any fun b => gauge.meets a b

/-- Whether the outline of a simplified polygon holds the first vertex of every hole and
no two of its rings meet. -/
def keepsApart (gauge : Gauge κ δ) (exterior : List κ) (interiors : List (List κ)) : Bool :=
  let shell := Polygon.closing exterior []
  interiors.all (fun hole => hole.head?.all (gauge.contains shell)) &&
    !anyPair gauge.ringsMeet (exterior :: interiors)

/-- Simplify a polygon, each ring on its own. -/
def simplifyPolygon (gauge : Gauge κ δ) (tolerance : δ) (polygon : Polygon κ) : Polygon κ :=
  let exterior := gauge.simplifyRing tolerance polygon.exterior
  let interiors := polygon.interiors.map (gauge.simplifyRing tolerance)
  if gauge.keepsApart exterior interiors then Polygon.closing exterior interiors else polygon

/-- Simplify an area, each polygon on its own. -/
def simplifyArea (gauge : Gauge κ δ) (tolerance : δ) (polygons : List (Polygon κ)) :
    List (Polygon κ) :=
  let simplified := polygons.map (gauge.simplifyPolygon tolerance)
  if anyPair gauge.overlaps simplified then polygons else simplified

/-- Simplify a shape.  Without a tolerance it stays as it is, and so does a point. -/
def simplify (gauge : Gauge κ δ) (tolerance : Option δ) (geometry : Geometry κ) : Geometry κ :=
  match tolerance, geometry with
  | none, _ => geometry
  | some _, .point position => .point position
  | some tolerance, .line vertices => .line (gauge.simplifyLine tolerance vertices)
  | some tolerance, .area polygons => .area (gauge.simplifyArea tolerance polygons)

/-- The gauge of the plane. -/
def plane (K : Type) [Scalar K] : Gauge (Coord K) K where
  deviation := Segment.distance
  meets := Segment.meets
  contains := Polygon.contains
  overlaps := Polygon.overlaps

end Gauge

/-- The tolerance that a number asks for: none unless it is positive and finite. -/
def tolerance? {K : Type} [Scalar K] (value : K) : Option K :=
  if Scalar.isFinite value && decide (0 < value) then some value else none

/-- Simplify a shape so that it deviates by at most `tolerance` degrees. -/
def Geometry.simplify {K : Type} [Scalar K] (geometry : Geometry (Coord K)) (tolerance : K) :
    Geometry (Coord K) :=
  (Gauge.plane K).simplify (tolerance? tolerance) geometry

end Gazetteer
