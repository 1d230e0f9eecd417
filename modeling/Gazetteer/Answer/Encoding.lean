import Gazetteer.Answer
import Gazetteer.Snapshot.Encoding

/-!
# Answers as data

The data that an answer is written as.  Extras that were not asked for, and a name that is
missing, are left out.
-/

namespace Gazetteer

open Data

namespace AddressLine

def toValue (line : AddressLine) : Value :=
  .object (
    (match line.source with
      | some source =>
        [("place_id", idToValue source.id), ("osm_type", source.element.toValue),
          ("osm_id", .integer source.elementId.toInt)]
      | none => []) ++
    [("category", .text line.category), ("place_type", .text line.placeType),
      ("kind", .text line.kind), ("name", .text line.name),
      ("rank_address", .integer line.rank.toNat), ("is_matched", .truth line.isMatched)])

end AddressLine

namespace GeometryOutput

def toValue (output : GeometryOutput Float) : Value :=
  .object [("format", .text output.format.name), ("tolerance", .real output.tolerance),
    ("geometry", output.geometry.toValue)]

end GeometryOutput

namespace Answer

def toValue (answer : Answer Float) : Value :=
  let place := answer.place
  .object (
    [("place_id", idToValue place.id), ("osm_type", place.element.toValue),
      ("osm_id", .integer place.elementId.toInt), ("category", .text place.category),
      ("place_type", .text place.placeType),
      ("rank_address", .integer place.addressRank.toNat),
      ("rank_search", .integer place.searchRank.toNat),
      ("importance", .real answer.importance), ("centroid", place.centroid.toGeographic),
      ("bbox", place.bounds.toValue)] ++
    field? "name" (answer.name.map .text) ++
    [("display_name", .text answer.displayName), ("distance", .real answer.distance)] ++
    field? "address" (answer.address.map fun lines => .array (lines.map AddressLine.toValue)) ++
    field? "extra_tags" (answer.extraTags.map Tags.toValue) ++
    field? "name_details" (answer.nameDetails.map Tags.toValue) ++
    field? "geometry" (answer.geometry.map GeometryOutput.toValue) ++
    (if answer.hierarchyTruncated then [("hierarchy_truncated", .truth true)] else []))

end Answer

end Gazetteer
