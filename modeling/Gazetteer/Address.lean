import Gazetteer.Hierarchy.Chain
import Gazetteer.Naming

/-!
# Addresses

The address of a place is a list of lines from the most detailed level to the most
general: the name of each level, and for a building its house number and postcode, for a
country its code.  The display name joins the names into one text.
-/

namespace Gazetteer

/-- The place that an address line is about. -/
structure LineSource where
  id : PlaceId
  element : ElementKind
  elementId : Int64
deriving DecidableEq, Repr

/-- One line of an address. -/
structure AddressLine where
  /-- The place it is about; none for a line made from an address tag. -/
  source : Option LineSource
  category : String
  placeType : String
  /-- The key of the line, such as `road` or `house_number`. -/
  kind : String
  name : String
  rank : Rank
  /-- Whether the line describes the place that was asked for. -/
  isMatched : Bool
deriving DecidableEq, Repr

/-- The lines of an address and the text that sums them up. -/
structure AssembledAddress where
  lines : List AddressLine
  displayName : String
deriving DecidableEq, Repr

namespace AddressLine

variable {K : Type}

/-- The line that names a place. -/
def ofPlace (place : Place K) (name : String) (isMatched : Bool) : AddressLine where
  source := some ⟨place.id, place.element, place.elementId⟩
  category := place.category
  placeType := place.placeType
  kind := Address.kind place.category place.placeType place.addressRank
  name := name
  rank := place.addressRank
  isMatched := isMatched

/-- A line made from a tag.  The house number is part of what was asked for. -/
def ofTag (kind value : String) (rank : Rank) : AddressLine where
  source := none
  category := "place"
  placeType := kind
  kind := kind
  name := value
  rank := rank
  isMatched := kind == "house_number"

end AddressLine

namespace Address

variable {K : Type}

/-- The postcode line of a building. -/
def postcodeLines (building : Place K) : List AddressLine :=
  ((building.address.get? "postcode").map fun code =>
    AddressLine.ofTag "postcode" code Rank.postcode).toList

/-- The line that names a level.  A place without names is covered by its house number. -/
def nameLines (languages : List String) (place : Place K) (isFirst : Bool) : List AddressLine :=
  if place.names.isEmpty then []
  else ((place.name? languages).map fun name => AddressLine.ofPlace place name isFirst).toList

/-- The house number line of a building. -/
def houseNumberLines (building : Place K) : List AddressLine :=
  (building.houseNumber?.map fun number =>
    AddressLine.ofTag "house_number" number building.addressRank).toList

/-- The code line of a country. -/
def countryCodeLines (place : Place K) : List AddressLine :=
  if place.addressRank = Rank.country then
    (place.countryCode.map fun code =>
      AddressLine.ofTag "country_code" code Rank.country).toList
  else []

/-- The lines of one level of the address of `first`.  The postcode of a building stands
before each country, its number behind its own name. -/
def levelLines (languages : List String) (first place : Place K) (isFirst : Bool) :
    List AddressLine :=
  (if place.addressRank = Rank.country ∧ first.isBuilding then postcodeLines first else []) ++
    nameLines languages place isFirst ++
    (if isFirst ∧ first.isBuilding then houseNumberLines first else []) ++
    countryCodeLines place

/-- The lines of an address, the place that is described first.  If no line is a postcode,
that of a building comes last. -/
def lines (languages : List String) : List (Place K) → List AddressLine
  | [] => []
  | first :: rest =>
    let levels := levelLines languages first first true ++
      rest.flatMap fun place => levelLines languages first place false
    if first.isBuilding && !levels.any (fun line => line.kind == "postcode") then
      levels ++ postcodeLines first
    else levels

/-- A part behind `last`, unless it repeats it, and then the rest of the parts, which is
told what it follows. -/
def append (last : Option String) (part : String) (rest : Option String → List String) :
    List String :=
  if last = some part then rest last else part :: rest (some part)

/-- The parts of the display name behind the part `last`, with a house number `pending`
that waits for its road.  Blank names and country codes are passed over, and a part is not
repeated.  A number that comes to a line which is no road stands by itself before it. -/
def partsFrom (last pending : Option String) : List AddressLine → List String
  | [] => pending.toList
  | line :: rest =>
    let name := Text.trim line.name
    if name.isEmpty || line.kind == "country_code" then partsFrom last pending rest
    else if line.kind == "house_number" then partsFrom last (some name) rest
    else
      match pending with
      | none => append last name fun last => partsFrom last none rest
      | some number =>
        if line.kind == "road" then
          append last (number ++ " " ++ name) fun last => partsFrom last none rest
        else number :: append (some number) name fun last => partsFrom last none rest

/-- The parts of the display name. -/
def parts (lines : List AddressLine) : List String :=
  partsFrom none none lines

/-- The names of the lines in one text, the house number in front of its road. -/
def displayName (lines : List AddressLine) : String :=
  String.intercalate ", " (parts lines)

/-- The address of the first of some levels, most detailed first. -/
def ofPlaces (languages : List String) (places : List (Place K)) : AssembledAddress :=
  let lines := lines languages places
  ⟨lines, displayName lines⟩

/-- The address of the first of some levels.  Levels that are not in the store are passed
over. -/
def assemble (store : Store K) (entries : List ChainEntry) (languages : List String) :
    AssembledAddress :=
  ofPlaces languages (entries.filterMap fun entry => store.get? entry.id)

end Address

end Gazetteer
