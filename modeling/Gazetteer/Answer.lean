import Gazetteer.Address
import Gazetteer.Request

/-!
# Answers

What a caller gets: a place, its name and address in the caller's languages, and the extras
that were asked for.
-/

namespace Gazetteer

/-- The shape that comes with an answer. -/
structure GeometryOutput (K : Type) where
  format : GeometryFormat
  tolerance : K
  geometry : Geometry (Coord K)

/-- The place that describes a coordinate. -/
structure Answer (K : Type) where
  place : Place K
  name : Option String
  displayName : String
  /-- The distance of the place from the coordinate, in degrees. -/
  distance : K
  address : Option (List AddressLine)
  extraTags : Option Tags
  nameDetails : Option Tags
  geometry : Option (GeometryOutput K)
  /-- Whether the chain was cut at the length limit. -/
  hierarchyTruncated : Bool

namespace Answer

variable {K : Type}

/-- The importance of the place, by rank if none is known. -/
def importance (answer : Answer K) : Float :=
  answer.place.importance.getD (defaultImportance answer.place.searchRank)

/-- The name on the first address line of a kind. -/
def component? (answer : Answer K) (kind : String) : Option String :=
  (answer.address.bind fun lines => lines.find? fun line => line.kind == kind).map
    AddressLine.name

end Answer

end Gazetteer
