/-!
# Ranks

All places stand on one scale from 2, a continent, to 30, a building: the lower the rank,
the wider the region.  A place of address rank 0 never appears in an address.
-/

namespace Gazetteer

/-- A rank on the scale of places. -/
abbrev Rank := UInt8

namespace Rank

def country : Rank := 4
def street : Rank := 26
def minorStreet : Rank := 27
def building : Rank := 30

/-- The rank of a postcode line in an address, between country and state. -/
def postcode : Rank := 5

end Rank

/-- The levels of administrative boundaries, from a country down to a neighbourhood. -/
inductive AdminLevel where
  | country
  | macroRegion
  | region
  | macroCounty
  | county
  | localAdmin
  | locality
  | borough
  | suburb
  | neighbourhood
deriving DecidableEq, Repr

namespace AdminLevel

/-- The level that a boundary is tagged with. -/
def ofNumber? (number : Nat) : Option AdminLevel :=
  match number with
  | 2 => some country
  | 3 => some macroRegion
  | 4 => some region
  | 5 => some macroCounty
  | 6 => some county
  | 7 => some localAdmin
  | 8 => some locality
  | 9 => some borough
  | 10 => some suburb
  | 11 => some neighbourhood
  | _ => none

/-- The number that a boundary of this level is tagged with. -/
def number : AdminLevel → UInt8
  | country => 2
  | macroRegion => 3
  | region => 4
  | macroCounty => 5
  | county => 6
  | localAdmin => 7
  | locality => 8
  | borough => 9
  | suburb => 10
  | neighbourhood => 11

/-- The rank of a boundary: twice its number, and 22 for a neighbourhood. -/
def rank : AdminLevel → Rank
  | neighbourhood => 22
  | level => level.number * 2

/-- The name of a level. -/
def name : AdminLevel → String
  | country => "country"
  | macroRegion => "macro_region"
  | region => "region"
  | macroCounty => "macro_county"
  | county => "county"
  | localAdmin => "local_admin"
  | locality => "locality"
  | borough => "borough"
  | suburb => "suburb"
  | neighbourhood => "neighbourhood"

/-- The number of a level reads back as the level. -/
@[simp] theorem ofNumber?_number (level : AdminLevel) :
    ofNumber? level.number.toNat = some level := by
  cases level <;> rfl

end AdminLevel

/-- The two ranks of a place: `search` says how detailed it is when a nearest place is
looked for, `address` where it stands in addresses. -/
structure Ranks where
  search : Rank
  address : Rank
deriving DecidableEq, Repr

namespace Ranks

/-- The same rank for both uses. -/
def both (rank : Rank) : Ranks := ⟨rank, rank⟩

/-- The ranks of a settlement or region, by its `place` tag. -/
def ofPlace (value : String) : Ranks :=
  match value with
  | "continent" | "ocean" | "sea" => both 2
  | "country" => both 4
  | "state" | "province" => both 8
  | "region" => both 10
  | "county" => both 12
  | "city" => both 16
  | "town" => ⟨18, 16⟩
  | "borough" => both 18
  | "village" => ⟨19, 16⟩
  | "hamlet" | "suburb" => both 20
  | "quarter" | "neighbourhood" | "isolated_dwelling" | "farm" => both 22
  | "locality" => ⟨25, 0⟩
  | "house" => both Rank.building
  | _ => both 25

/-- Highways that are streets whether or not they have a name. -/
def streetHighways : List String :=
  ["motorway", "trunk", "primary", "secondary", "tertiary", "residential", "unclassified",
    "living_street", "pedestrian", "road"]

/-- Highways that are streets only with a name. -/
def minorHighways : List String :=
  ["service", "track", "path", "footway", "cycleway", "bridleway", "steps"]

/-- The ranks of a way by its `highway` tag; none for ways that are no streets. -/
def ofHighway? (value : String) (named : Bool) : Option Ranks :=
  if streetHighways.contains value then some (both Rank.street)
  else if named && minorHighways.contains value then some (both Rank.minorStreet)
  else none

end Ranks

/-- Keys that make an object a building or something of its size. -/
def buildingKeys : List String :=
  ["amenity", "shop", "tourism", "leisure", "office", "building", "historic", "craft"]

namespace Address

/-- The kind of an address line by rank alone. -/
def kindOfRank? (rank : Rank) : Option String :=
  if rank < 4 then none
  else if rank = 4 then some "country"
  else if rank ≤ 9 then some "state"
  else if rank ≤ 11 then some "state_district"
  else if rank ≤ 13 then some "county"
  else if rank ≤ 16 then some "city"
  else if rank ≤ 19 then some "town"
  else if rank ≤ 21 then some "suburb"
  else if rank ≤ 25 then some "neighbourhood"
  else if rank ≤ 27 then some "road"
  else none

/-- Values of the `place` tag that are kinds of address lines themselves. -/
def placeKinds : List String :=
  ["country", "state", "region", "county", "city", "town", "village", "hamlet", "suburb",
    "borough", "quarter", "neighbourhood", "isolated_dwelling", "farm", "city_block"]

/-- The kind of the address line of a place: a settlement goes by its own type, another
place by its rank, and what is too detailed for that by its type again. -/
def kind (category placeType : String) (rank : Rank) : String :=
  if category = "place" ∧ placeType ∈ placeKinds then placeType
  else (kindOfRank? rank).getD placeType

end Address

/-- The importance of a place for which none is known: it falls with detail, down to
zero. -/
def defaultImportance (rank : Rank) : Float :=
  let value := 0.75 - Float.ofNat rank.toNat / 40.0
  if value < 0.0 then 0.0 else value

end Gazetteer
