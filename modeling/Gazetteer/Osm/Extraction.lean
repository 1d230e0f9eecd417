import Gazetteer.Osm.Classification
import Gazetteer.Osm.Survey
import Gazetteer.Osm.Tagging

/-!
# Places from map elements

An element becomes a place if its tags say what it is, its shape is known, and it has a
name or a part of an address.
-/

namespace Gazetteer.Osm

/-- The shape of an element.  A way that comes back to its beginning is an area if its tags
allow that, and a relation always is one. -/
def Survey.geometry? (survey : Survey) : Element → Option (Geometry (Coord Float))
  | .node node => some (.point node.position)
  | .way way =>
    if way.isLoop && isArea way.tags then (survey.area? way.id).map Polygon.toGeometry
    else (survey.line? way.id).map .line
  | .relation relation => (survey.relationArea? relation.id).map .area

/-- The place that an element describes; it has no number yet. -/
def Survey.place? (survey : Survey) (element : Element) : Option (Place Float) := do
  let found ← Classification.ofTags? element.tags
  let geometry ← survey.geometry? element
  let place ← Place.ofGeometry? 0 element.kind element.id found.category found.placeType geometry
  let place := (place.withRanks found.ranks).withTags element.tags
  if place.names.isEmpty && place.address.isEmpty then none else some place

/-- The places that the elements of a map describe, in order and numbered by position. -/
def placesOf (elements : List Element) : List (Place Float) :=
  let survey := Survey.ofElements isPlace elements
  (elements.filterMap survey.place?).mapIdx fun position place =>
    { place with id := UInt32.ofNat position }

end Gazetteer.Osm
