import Gazetteer.Decimal.Reading
import Gazetteer.Rank
import Gazetteer.Tags

/-!
# What an element is

The tags of an element decide whether it has a place in the gazetteer, under which of its
tags, and how it ranks.  The tags are asked in a fixed order, and the first that is there
decides alone: an administrative boundary whose level makes no sense is not looked at again
as a settlement.
-/

namespace Gazetteer.Osm

/-- The main tag of an element, and its ranks. -/
structure Classification where
  category : String
  placeType : String
  ranks : Ranks
deriving DecidableEq, Repr

/-- Whether tags carry one of the country codes that only recognised countries have. -/
def hasCountryCode (tags : Tags) : Bool :=
  ["ISO3166-1", "ISO3166-1:alpha2", "ISO3166-1:alpha3"].any tags.hasKey

/-- The level of an administrative boundary. -/
def adminLevel? (tags : Tags) : Option AdminLevel := do
  let number ← (Decimal.readInteger 0 255 (← tags.get? "admin_level")).toOption
  AdminLevel.ofNumber? number.toNat

namespace Classification

/-- An administrative boundary ranks by its level.  One of the level of a country without a
country code is a disputed or historic area and has no place. -/
def ofBoundary? (tags : Tags) : Option Classification := do
  let level ← adminLevel? tags
  if level = .country ∧ !hasCountryCode tags then none
  else some ⟨"boundary", "administrative", .both level.rank⟩

/-- Something of the size of a building, by the first of the keys that it is tagged with. -/
def ofBuilding? (tags : Tags) : Option Classification :=
  buildingKeys.findSome? fun key =>
    (tags.get? key).map fun value => ⟨key, value, .both Rank.building⟩

/-- What the tags of an element say that it is. -/
def ofTags? (tags : Tags) : Option Classification :=
  if tags.has "boundary" "administrative" then ofBoundary? tags
  else
    match tags.get? "place" with
    | some value => some ⟨"place", value, Ranks.ofPlace value⟩
    | none =>
      match tags.get? "highway" with
      | some value =>
        (Ranks.ofHighway? value (tags.hasKey "name")).map fun ranks => ⟨"highway", value, ranks⟩
      | none =>
        match ofBuilding? tags with
        | some found => some found
        | none =>
          if tags.hasKey "addr:housenumber" then some ⟨"place", "house", .both Rank.building⟩
          else none

end Classification

/-- Whether tags make an element one that the gazetteer has a place for. -/
def isPlace (tags : Tags) : Bool :=
  (Classification.ofTags? tags).isSome

/-- Whether a way that comes back to its beginning is an area and not a loop of road. -/
def isArea (tags : Tags) : Bool :=
  !tags.has "area" "no" && (!tags.hasKey "highway" || tags.has "area" "yes")

end Gazetteer.Osm
