import Gazetteer.Importance.Scores
import Gazetteer.Place

/-!
# The importance of places

A place is as important as its score says.  Without one it is as important as its sort,
except that boundaries are left without and ranked by their size when they are shown.
-/

namespace Gazetteer

namespace Importance

/-- The importance of a settlement or region by its sort. -/
def ofSettlement? (placeType : String) : Option Float :=
  match placeType with
  | "continent" | "ocean" => some 0.5
  | "sea" | "country" => some 0.4
  | "state" => some 0.3
  | "region" => some 0.25
  | "county" | "city" => some 0.2
  | "town" => some 0.15
  | "village" | "suburb" => some 0.1
  | "hamlet" | "farm" | "locality" => some 0.05
  | _ => none

/-- Ways that are for slower traffic than streets. -/
def slowHighways : List String := ["path", "cycleway", "footway", "track"]

/-- Amenities that people look for. -/
def knownAmenities : List String :=
  ["restaurant", "cafe", "fast_food", "bar", "pub", "marketplace"]

/-- The importance of anything else. -/
def usual : Float := 0.01

/-- The importance of a place by its sort. -/
def ofSort (category placeType : String) : Float :=
  match category with
  | "place" => (ofSettlement? placeType).getD usual
  | "highway" => if placeType ∈ slowHighways then 0.075 else 0.1
  | "shop" => 0.05
  | "amenity" => if placeType ∈ knownAmenities then 0.05 else usual
  | _ => usual

end Importance

namespace Place

open Importance

variable {K : Type}

/-- The score of a place. -/
def score? (scores : Option Scores) (place : Place K) : Option Float := do
  (← scores)[← place.wikidata]?

/-- The place with the importance that follows from the scores, or from its sort. -/
def withImportance (scores : Option Scores) (place : Place K) : Place K :=
  { place with importance :=
    match place.score? scores with
    | some score => some score
    | none =>
      if place.category = "boundary" then none
      else some (ofSort place.category place.placeType) }

end Place

end Gazetteer
