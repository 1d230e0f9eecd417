import Gazetteer.Data.Value
import Gazetteer.Place

/-!
# Places as data

The data that a place is written as in a snapshot and read back from.  Every field has a
name of its own; fields that a place may lack are left out when they are missing, and a
missing list or set of tags reads back as an empty one.  For each shape of data there is
one function that writes it and one that reads it.
-/

namespace Gazetteer

open Data

/-! ## Coordinates and shapes -/

namespace Coord

def toValue (p : Coord Float) : Value :=
  .object [("x", .real p.x), ("y", .real p.y)]

def ofValue? (value : Value) : Option (Coord Float) := do
  match ← value.record? ["x", "y"] with
  | [x, y] => some ⟨← required Value.real? x, ← required Value.real? y⟩
  | _ => none

/-- A coordinate under its geographic names. -/
def toGeographic (p : Coord Float) : Value :=
  .object [("lat", .real p.y), ("lon", .real p.x)]

def ofGeographic? (value : Value) : Option (Coord Float) := do
  match ← value.record? ["lat", "lon"] with
  | [lat, lon] => some ⟨← required Value.real? lon, ← required Value.real? lat⟩
  | _ => none

end Coord

/-- A list of vertices. -/
def verticesToValue (vertices : List (Coord Float)) : Value :=
  .array (vertices.map Coord.toValue)

def verticesOfValue? : Value → Option (List (Coord Float)) :=
  Value.listOf? Coord.ofValue?

namespace Polygon

def toValue (polygon : Polygon (Coord Float)) : Value :=
  .object [("exterior", verticesToValue polygon.exterior),
    ("interiors", .array (polygon.interiors.map verticesToValue))]

def ofValue? (value : Value) : Option (Polygon (Coord Float)) := do
  match ← value.record? ["exterior", "interiors"] with
  | [exterior, interiors] =>
    some ⟨← required verticesOfValue? exterior,
      ← required (Value.listOf? verticesOfValue?) interiors⟩
  | _ => none

end Polygon

namespace Geometry

/-- The name of the kind of a shape. -/
def kind {κ : Type} : Geometry κ → String
  | .point _ => "point"
  | .line _ => "line"
  | .area _ => "area"

/-- The vertices of a shape as data. -/
def verticesValue : Geometry (Coord Float) → Value
  | .point p => p.toValue
  | .line vertices => verticesToValue vertices
  | .area polygons => .array (polygons.map Polygon.toValue)

def toValue (geometry : Geometry (Coord Float)) : Value :=
  .object [("type", .text geometry.kind), ("coordinates", geometry.verticesValue)]

/-- How many arrays and objects may stand inside each other in vertices that are kept until
their kind is known. -/
def keptLevels : Nat := 123

/-- Read a shape.  Vertices are read by the kind of the shape, so that those that come before
the kind have to be kept. -/
def ofValue? (value : Value) : Option (Geometry (Coord Float)) := do
  match ← value.record? ["type", "coordinates"] with
  | [kind, vertices] =>
    guard (!value.putsFirst "coordinates" "type" || vertices.all (Value.isKeepable keptLevels))
    match ← required Value.choice? kind with
    | "point" => return .point (← required Coord.ofValue? vertices)
    | "line" => return .line (← required verticesOfValue? vertices)
    | "area" => return .area (← required (Value.listOf? Polygon.ofValue?) vertices)
    | _ => none
  | _ => none

end Geometry

namespace Bounds

def toValue (bounds : Bounds Float) : Value :=
  .object [("min_lon", .real bounds.minLon), ("min_lat", .real bounds.minLat),
    ("max_lon", .real bounds.maxLon), ("max_lat", .real bounds.maxLat)]

def ofValue? (value : Value) : Option (Bounds Float) := do
  match ← value.record? ["min_lon", "min_lat", "max_lon", "max_lat"] with
  | [minLon, minLat, maxLon, maxLat] =>
    some ⟨← required Value.real? minLon, ← required Value.real? minLat,
      ← required Value.real? maxLon, ← required Value.real? maxLat⟩
  | _ => none

end Bounds

/-! ## Words, numbers and tags -/

namespace ElementKind

def toValue (kind : ElementKind) : Value :=
  .text kind.name

def ofValue? (value : Value) : Option ElementKind :=
  value.choice?.bind ofName?

end ElementKind

namespace Tags

def toValue (tags : Tags) : Value :=
  .object (tags.entries.map fun entry => (entry.1, .text entry.2))

/-- Tags are an object of texts; of two texts under one key the later counts. -/
def ofValue? (value : Value) : Option Tags := do
  let members ← value.table?
  let pairs ← members.mapM fun member => member.2.text?.map fun text => (member.1, text)
  some (ofList pairs)

end Tags

/-- A number of eight bits without sign. -/
def rankOfValue? (value : Value) : Option Rank :=
  (value.natural? UInt8.size).map UInt8.ofNat

/-- A number of thirty-two bits without sign. -/
def idOfValue? (value : Value) : Option PlaceId :=
  (value.natural? UInt32.size).map UInt32.ofNat

/-- A number of sixty-four bits with sign. -/
def elementIdOfValue? (value : Value) : Option Int64 :=
  (value.integer? Int64.minValue.toInt Int64.maxValue.toInt).map Int64.ofInt

def idToValue (id : PlaceId) : Value :=
  .integer id.toNat

/-- A field that is left out when it is missing. -/
def field? (name : String) (value : Option Value) : List (String × Value) :=
  (value.map fun value => (name, value)).toList

/-! ## Places -/

namespace Place

def toValue (place : Place Float) : Value :=
  .object (
    [("id", idToValue place.id), ("osm_type", place.element.toValue),
      ("osm_id", .integer place.elementId.toInt), ("category", .text place.category),
      ("place_type", .text place.placeType), ("geometry", place.geometry.toValue),
      ("bbox", place.bounds.toValue), ("centroid", place.centroid.toGeographic),
      ("rank_address", .integer place.addressRank.toNat),
      ("rank_search", .integer place.searchRank.toNat)] ++
    field? "importance" (place.importance.map .real) ++
    field? "wikidata_id" (place.wikidata.map .text) ++
    [("names", place.names.toValue), ("address", place.address.toValue),
      ("extra_tags", place.extraTags.toValue),
      ("parents", .array (place.parents.map idToValue))] ++
    field? "country_code" (place.countryCode.map .text))

/-- The names of the fields of a place, in order. -/
def fieldNames : List String :=
  ["id", "osm_type", "osm_id", "category", "place_type", "geometry", "bbox", "centroid",
    "rank_address", "rank_search", "importance", "wikidata_id", "names", "address",
    "extra_tags", "parents", "country_code"]

def ofValue? (value : Value) : Option (Place Float) := do
  match ← value.record? fieldNames with
  | [id, element, elementId, category, placeType, geometry, bounds, centroid, addressRank,
      searchRank, importance, wikidata, names, address, extraTags, parents, countryCode] =>
    some {
      id := ← required idOfValue? id
      element := ← required ElementKind.ofValue? element
      elementId := ← required elementIdOfValue? elementId
      category := ← required Value.text? category
      placeType := ← required Value.text? placeType
      geometry := ← required Geometry.ofValue? geometry
      bounds := ← required Bounds.ofValue? bounds
      centroid := ← required Coord.ofGeographic? centroid
      addressRank := ← required rankOfValue? addressRank
      searchRank := ← required rankOfValue? searchRank
      importance := ← optional none (Value.optional? Value.real?) importance
      wikidata := ← optional none (Value.optional? Value.text?) wikidata
      names := ← optional ∅ Tags.ofValue? names
      address := ← optional ∅ Tags.ofValue? address
      extraTags := ← optional ∅ Tags.ofValue? extraTags
      parents := ← optional [] (Value.listOf? idOfValue?) parents
      countryCode := ← optional none (Value.optional? Value.text?) countryCode }
  | _ => none

end Place

end Gazetteer
