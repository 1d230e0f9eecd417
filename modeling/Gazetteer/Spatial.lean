import Gazetteer.Store
import Gazetteer.Plane.Distance
import Gazetteer.Spatial.BoxTree

/-!
# Looking up places by position

The two lookups that answers rest on: the places nearest to a point, and the areas that
contain it.  The nearest places are found with the help of their boxes; a place whose box
lies elsewhere than its shape may come later than its distance says.
-/

namespace Gazetteer

/-- A place with its distance from a point, in degrees. -/
structure Candidate (K : Type) where
  place : Place K
  distance : K

variable {K : Type} [Scalar K]

namespace Place

/-- The distance from a point to a place. -/
def distance (place : Place K) (p : Coord K) : K :=
  place.geometry.distance p

/-- Whether a place is an area that contains a point. -/
def contains (place : Place K) (p : Coord K) : Bool :=
  match place.geometry with
  | .area polygons => areaContains polygons p
  | _ => false

end Place

/-- Places arranged by their boxes. -/
structure SpatialIndex (K : Type) where
  trees : List (BoxTree K (Place K))

namespace SpatialIndex

/-- The index of some places. -/
def ofPlaces (places : List (Place K)) : SpatialIndex K :=
  ⟨BoxTree.build (places.map fun place => (place.bounds.ordered, place))⟩

/-- The places that come first when branches wait at the distance of their boxes and places
at their own: the nearest ones in ascending order, where every box holds its shape. -/
def candidates (index : SpatialIndex K) (p : Coord K) (limit : Nat) : List (Candidate K) :=
  let square (place : Place K) : K := place.distance p * place.distance p
  (BoxTree.nearest index.trees square p limit).map fun (place, square) =>
    ⟨place, Scalar.sqrt square⟩

/-- The nearest places: at most `limit` of them, up to the first that is farther than
`radius`.  To find none is a failure. -/
def nearest (index : SpatialIndex K) (p : Coord K) (limit : Nat) (radius : K) :
    Except (Failure K) (List (Candidate K)) :=
  match (index.candidates p limit).takeWhile fun candidate => candidate.distance ≤ radius with
  | [] => .error .noCoverage
  | near => .ok near

end SpatialIndex

namespace Store

/-- The index of all places. -/
def index (store : Store K) : SpatialIndex K :=
  .ofPlaces store.toList

/-- The areas that contain a point.  Only areas whose box holds the point are looked at; a box
that was given with its corners the wrong way round is the box between them. -/
def containing (store : Store K) (p : Coord K) : List (Place K) :=
  store.toList.filter fun place => place.bounds.ordered.holds p && place.contains p

end Store

end Gazetteer
